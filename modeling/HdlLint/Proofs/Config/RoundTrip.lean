import HdlLint.Config.File
import HdlLint.Proofs.Config.Written
import HdlLint.Proofs.FileSystem.Write

/-!
# Configuration files after rewriting

A configuration that was read from a document can be written to a file and is then read from it
without a warning; writing it once more changes nothing (`Settled.load_store`). `toText_round_trip`
puts this together with the round trip through a document.
-/

namespace HdlLint.Config

variable {c : Config} {fs fs' : FileSystem} {path : Path}

theorem store_eq_ok_iff : store fs path c = .ok fs' ↔ fs.write path c.toText.toUTF8.toList = .ok fs' := by
  rw [store]
  cases fs.write path c.toText.toUTF8.toList with
  | ok fs₁ => simp
  | error fault => simp

theorem newlines_toText (c : Config) : FileSystem.newlines c.toText.toList = c.toText.toList := by
  rw [toText_eq, String.toList_ofList]
  exact FileSystem.newlines_of_not_mem (not_mem_documentLines c)

theorem Settled.load_store (h : c.Settled) (hstore : store fs path c = .ok fs') :
    load fs' path = ("", .ok c) ∧ store fs' path c = .ok fs' := by
  have hwrite := store_eq_ok_iff.mp hstore
  constructor
  · have htext := FileSystem.readText_write hwrite
    rw [newlines_toText] at htext
    rw [load, htext]
    dsimp only
    rw [String.ofList_toList, h.ofText_toText]
    rfl
  · exact store_eq_ok_iff.mpr (FileSystem.write_write hwrite)

/-- A configuration with a setting for each built-in rule is read from its own document, without a
warning: the same patterns and the same settings, in the order of the built-in rules. So it is equal
to the one that was written if that one has the order of the built-in rules, as every configuration
has that is read from a document or made by the program; any other one is read back in this order.
Whatever document a configuration was read from, it can be written to any file in its place; it is
then read from the file again, and writing it once more changes nothing. -/
theorem toText_round_trip :
    (∀ c : Config, (∀ name, name ∈ c.rules.names ↔ name ∈ BuiltInRule.names) →
      (∀ p ∈ c.excludePaths, Pattern.check p = .ok ()) →
      ∃ c', ofText c.toText = ⟨[], .ok c'⟩ ∧ c'.excludePaths = c.excludePaths ∧
        c'.rules.names = BuiltInRule.names ∧ (∀ name, c'.rules.get? name = c.rules.get? name) ∧
        (c.rules.names = BuiltInRule.names → c' = c)) ∧
    ∀ text unknown c, ofText text = ⟨unknown, .ok c⟩ → ∀ (fs : FileSystem) (path : Path),
      (fs.isFile path = .ok true → ∃ fs', store fs path c = .ok fs') ∧
      ∀ fs', store fs path c = .ok fs' →
        load fs' path = ("", .ok c) ∧ store fs' path c = .ok fs' := by
  constructor
  · intro c hnames hpatterns
    obtain ⟨hbuiltin, hget⟩ := update_default hnames
    refine ⟨_, ofText_toText (fun name hn => (hnames name).mp hn) hpatterns, rfl, hbuiltin, hget, ?_⟩
    intro horder
    rw [OrderedTable.eq_of_names_of_get? (hbuiltin.trans horder.symm) hget]
  · intro text unknown c htext fs path
    refine ⟨fun hfile => ?_, fun fs' hstore => (settled_of_ofText htext).load_store hstore⟩
    obtain ⟨fs', hwrite⟩ := FileSystem.write_of_isFile hfile c.toText.toUTF8.toList
    exact ⟨fs', store_eq_ok_iff.mpr hwrite⟩

/-- All rules, and patterns with characters that are written as escapes. -/
def sampleConfig : Config :=
  { default.enableAll with excludePaths := ["a\"b\\\\\t", "\x7f\r\n\x00é"] }

/-- These patterns are read as they were written. -/
theorem toText_round_trip_sample :
    (∀ name, name ∈ sampleConfig.rules.names ↔ name ∈ BuiltInRule.names) ∧
    (∀ p ∈ sampleConfig.excludePaths, Pattern.check p = .ok ()) ∧
    ofText sampleConfig.toText = ⟨[], .ok sampleConfig⟩ := by
  have horder : sampleConfig.rules.names = BuiltInRule.names := by decide +kernel
  have hnames : ∀ name, name ∈ sampleConfig.rules.names ↔ name ∈ BuiltInRule.names := fun name => by
    rw [horder]
  have hpatterns : ∀ p ∈ sampleConfig.excludePaths, Pattern.check p = .ok () := by
    have hsome : ∀ p ∈ sampleConfig.excludePaths, (Pattern.check p).toOption = some () := by
      decide +kernel
    intro p hp
    have h := hsome p hp
    cases hc : Pattern.check p with
    | ok _ => rfl
    | error fault =>
      rw [hc] at h
      cases h
  obtain ⟨c', htext, -, -, -, heq⟩ := toText_round_trip.1 sampleConfig hnames hpatterns
  rw [heq horder] at htext
  exact ⟨hnames, hpatterns, htext⟩

end HdlLint.Config
