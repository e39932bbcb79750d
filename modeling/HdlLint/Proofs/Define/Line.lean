import HdlLint.Proofs.DefineTable.Directive
import HdlLint.Proofs.TokenStream.Body
import HdlLint.Proofs.TokenStream.Grammar
import HdlLint.Verilog.TokenStream
import Mathlib.Data.List.TakeDrop

/-!
# Definitions on one line

The line from which a preprocessor reads a definition that is handed to it (`lineText`). `Gives`
tells that a definition is read without a fault, and `Survives` that it is read as it is from its
line; both depend on the lexemes only (`gives_iff`, `survives_iff`).
-/

namespace HdlLint.Define

open Verilog (Lexeme Macro)
open Verilog.Lexer (Lexes textOf)
open Verilog.TokenStream

/-! ## The line -/

/-- The name of a definition with its arguments. -/
def headText (d : Define) : List Char :=
  if d.arguments = [] then d.identifier.toList
  else d.identifier.toList ++ '(' :: ([','].intercalate (d.arguments.map String.toList) ++ [')'])

/-- The text of a definition behind an equals sign, if it has one. -/
def tailText : Option String → List Char
  | none => []
  | some text => '=' :: text.toList

theorem toList_toPredefine (d : Define) :
    d.toPredefine.toList = headText d ++ tailText d.text := by
  have hhead : (if d.arguments = [] then d.identifier
      else d.identifier ++ "(" ++ ",".intercalate d.arguments ++ ")").toList = headText d := by
    rw [headText]
    split
    · rfl
    · simp only [String.toList_append, String.toList_intercalate, List.append_assoc]
      rfl
  rw [toPredefine]
  cases d.text with
  | none =>
    rw [tailText, List.append_nil]
    exact hhead
  | some text =>
    dsimp only
    rw [String.toList_append, String.toList_append, hhead, List.append_assoc]
    rfl

/-- What stands behind the word define where a definition on one line is read. -/
def lineText (line : List Char) : List Char :=
  ' ' :: (line.takeWhile (· ≠ '=') ++ ' ' ::
    ((match line.dropWhile (· ≠ '=') with
      | [] => ['1']
      | _ :: text => text) ++ ['\n']))

theorem predefineText_eq (line : String) :
    predefineText line = "\x60define".toList ++ lineText line.toList := by
  have hword : "\x60define ".toList = "\x60define".toList ++ [' '] := by decide +kernel
  unfold predefineText
  rw [List.span_eq_takeWhile_dropWhile, lineText, hword]
  cases line.toList.dropWhile (· ≠ '=') <;>
    simp only [List.append_assoc, List.cons_append, List.nil_append]

theorem lineText_append_of_not_mem {line : List Char} (h : '=' ∉ line) (text : List Char) :
    lineText (line ++ text) = ' ' :: (line ++ (lineText text).tail) := by
  have hall : ∀ c ∈ line, decide (c ≠ '=') = true := fun c hc =>
    decide_eq_true fun he => h (he ▸ hc)
  rw [lineText, List.takeWhile_append_of_pos hall, List.dropWhile_append_of_pos hall,
    List.append_assoc]
  rfl

theorem lineText_of_not_mem {line : List Char} (h : '=' ∉ line) :
    lineText line = ' ' :: (line ++ [' ', '1', '\n']) := by
  have := lineText_append_of_not_mem h []
  rw [List.append_nil] at this
  exact this

theorem lineText_of_mem {line : List Char} (h : '=' ∉ line) (text : List Char) :
    lineText (line ++ '=' :: text) = ' ' :: (line ++ ' ' :: (text ++ ['\n'])) :=
  lineText_append_of_not_mem h ('=' :: text)

/-! ## Reading the line -/

theorem flowFrom_of_lexes {text : List Char} {ls : List Lexeme} (h : Lexes text ls)
    (outer : List Lexeme) : throughEnd (flowFrom true outer ls) = ls := by
  induction h with
  | done h hc hf =>
    rw [flowFrom, if_pos hc, if_pos rfl, throughEnd, if_pos hc]
  | cons hfront hls ih =>
    rw [flowFrom, if_neg hfront.cls_ne_endOfFile, throughEnd, if_neg hfront.cls_ne_endOfFile, ih]

theorem at_start (macros : OrderedTable Macro) (directory : List String) (text : List Char) :
    (start macros directory text).At (Verilog.Lexer.lexemes none text) macros := by
  refine ⟨?_, nofun, rfl⟩
  exact flowFrom_of_lexes (Verilog.Lexer.lexes_lexemes none text) _

/-- Reads a definition behind the word define. -/
def readBehindWord : Preprocessor Directive := do
  let _ ← next
  readDefine

/-- A step that reads a definition without a fault. -/
def Gives (surroundings : Surroundings) (x : Preprocessor Directive) (s : State) (d : Define) :
    Prop :=
  ((x.run surroundings).run s).2.faults = s.faults ∧
    ((x.run surroundings).run s).1.definition? = some d

/-- The state in front of the line that hands a definition over. -/
def handedOver (directory : List String) (d : Define) : State :=
  start OrderedTable.empty directory (predefineText d.toPredefine)

/-- A definition that is read as it is from the line that hands it over. -/
def Survives (surroundings : Surroundings) (directory : List String) (d : Define) : Prop :=
  Gives surroundings readBehindWord (handedOver directory d) d

/-- The definition that some lexemes hand over. -/
def ofDefinition (d : Definition) : Define :=
  ofDirective d.name.value
    ((d.formals.getD []).map fun f => String.ofList (f.2.flatMap sourceText))
    (d.body.map bodyToken)

/-- A definition is given as the lexemes that come next tell. -/
theorem gives_iff {surroundings : Surroundings} {s : State} {ls : List Lexeme}
    {macros : OrderedTable Macro} (h : s.At ls macros) (d : Define) :
    Gives surroundings readDefine s d ↔
      ∃ p rest, definitionOf ls = some (p, rest) ∧ ofDefinition p = d := by
  have hfollows := follows_readDefine surroundings h
  rw [Gives]
  cases hp : definitionOf ls with
  | none =>
    rw [hp, FollowsDefinition, Follows] at hfollows
    constructor
    · intro h
      rw [h.1] at hfollows
      exact absurd hfollows (Nat.lt_irrefl _)
    · rintro ⟨p, rest, h, -⟩
      cases h
  | some p =>
    obtain ⟨p, rest⟩ := p
    rw [hp, FollowsDefinition] at hfollows
    obtain ⟨hval, hleaves⟩ := hfollows
    rw [hval, hleaves.faults]
    constructor
    · exact fun h => ⟨p, rest, rfl, Option.some.inj h.2⟩
    · rintro ⟨p', rest', heq, hd⟩
      obtain ⟨rfl, rfl⟩ := Prod.mk.inj (Option.some.inj heq)
      exact ⟨rfl, congrArg some hd⟩

theorem word_define (v : List Char) :
    Verilog.Lexer.word ("\x60define".toList ++ (' ' :: v)) =
      ⟨.directive, "\x60define".toList.length, "define".toList, []⟩ := by
  have hword : "\x60define".toList = '\x60' :: "define".toList := by decide +kernel
  have hparts : ∀ c ∈ "define".toList, Verilog.Lexer.isNamePart c = true :=
    List.all_eq_true.mp (by decide +kernel)
  have htake : ("define".toList ++ (' ' :: v)).takeWhile Verilog.Lexer.isNamePart =
      "define".toList := by
    rw [List.takeWhile_append_of_pos hparts, List.takeWhile_cons_of_neg (by decide),
      List.append_nil]
  rw [hword, List.cons_append, Verilog.Lexer.word_backtick, Verilog.Lexer.backtick_name, htake]
  · rfl
  · have hhead : ("define".toList ++ (' ' :: v)).head? = some 'd' := rfl
    rw [hhead]
    intro c hc
    obtain rfl := Option.some.inj hc
    decide

/-- Behind the word define the lexemes of the text come next. -/
theorem exists_lexes_behindWord (surroundings : Surroundings) (macros : OrderedTable Macro)
    (directory : List String) (text : List Char) :
    ∃ ls s, Lexes (' ' :: text) ls ∧ s.At ls macros ∧ ∀ d,
      Gives surroundings readBehindWord
        (start macros directory ("\x60define".toList ++ ' ' :: text)) d ↔
          Gives surroundings readDefine s d := by
  have hat := at_start macros directory ("\x60define".toList ++ ' ' :: text)
  have hlexes := Verilog.Lexer.lexes_lexemes none ("\x60define".toList ++ ' ' :: text)
  have hmark : Verilog.Lexer.withoutMark ("\x60define".toList ++ ' ' :: text) =
      [] ++ ("\x60define".toList ++ ' ' :: text) :=
    Verilog.Lexer.withoutMark_of_ne (by decide) _
  rw [hmark] at hlexes
  obtain ⟨l, ls, hls, hl, hrest⟩ := hlexes.exists_spells .nil (by decide +kernel)
    (Verilog.Lexer.trivia?_of_isEscapedPart rfl (by decide) _) (word_define _)
  obtain ⟨l', ls', hup, -, hread⟩ := @read_next surroundings _ hat.calm
  rw [hat.upcoming, hls] at hup
  obtain ⟨rfl, rfl⟩ := List.cons.inj hup
  have hc : l.cls ≠ .endOfFile := by
    rw [hl.cls]
    nofun
  refine ⟨ls, _, hrest, ⟨hread.upcoming hc, hread.calm, hread.macros⟩, fun d => ?_⟩
  rw [Gives, Gives, readBehindWord, run_bind, hread.quiet hl.faults]

/-- A definition survives where the lexemes of its line hand it over. -/
theorem survives_iff (surroundings : Surroundings) (directory : List String) (d : Define) :
    ∃ ls, Lexes (lineText d.toPredefine.toList) ls ∧
      (Survives surroundings directory d ↔
        ∃ p rest, definitionOf ls = some (p, rest) ∧ ofDefinition p = d) := by
  obtain ⟨ls, s, hls, hat, hgives⟩ := exists_lexes_behindWord surroundings OrderedTable.empty
    directory (lineText d.toPredefine.toList).tail
  refine ⟨ls, hls, ?_⟩
  rw [← gives_iff hat, ← hgives, Survives, handedOver, predefineText_eq]
  rfl

/-! ## The definition of some lexemes -/

theorem flatMap_bodyToken (ls : List Lexeme) :
    (ls.map bodyToken).flatMap BodyToken.text = textOf ls := by
  rw [List.flatMap_map, textOf]
  congr 1
  funext l
  rw [BodyToken.text, bodyToken, sourceText, List.flatMap_singleton, String.toList_ofList]

theorem ofDefinition_eq (p : Definition) :
    ofDefinition p = ⟨p.name.value,
      (p.formals.getD []).map fun f => String.ofList (Text.strip (textOf f.2)),
      match Text.strip (textOf p.body) with
      | [] => none
      | text => some (String.ofList text)⟩ := by
  rw [ofDefinition, ofDirective, flatMap_bodyToken, List.map_map]
  congr 1
  refine List.map_congr_left fun f _ => ?_
  show String.ofList (Text.strip (String.ofList (f.2.flatMap sourceText)).toList) = _
  rw [String.toList_ofList]
  rfl

@[simp] theorem ofDefinition_identifier (p : Definition) :
    (ofDefinition p).identifier = p.name.value := rfl

theorem ofDefinition_arguments (p : Definition) :
    (ofDefinition p).arguments.map String.toList =
      (p.formals.getD []).map fun f => Text.strip (textOf f.2) := by
  rw [ofDefinition_eq, List.map_map]
  exact List.map_congr_left fun f _ => String.toList_ofList

theorem ofDefinition_text (p : Definition) :
    ((ofDefinition p).text = none ∧ Text.strip (textOf p.body) = []) ∨
      (ofDefinition p).text = some (String.ofList (Text.strip (textOf p.body))) := by
  rw [ofDefinition_eq]
  cases Text.strip (textOf p.body) with
  | nil => exact .inl ⟨rfl, rfl⟩
  | cons c v => exact .inr rfl

end HdlLint.Define
