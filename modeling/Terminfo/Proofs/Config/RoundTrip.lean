import Terminfo.Config.Json
import Terminfo.Proofs.Json.Token
import Terminfo.Proofs.Json.Tree
import Terminfo.Proofs.Text.Decimal

set_option autoImplicit false

namespace Terminfo.Config

open Json

def piece (c : Char) : Piece :=
  if c.toNat < 0x20 ∧ c ∉ ['\x08', '\t', '\n', '\x0c', '\r'] then .unit c.toNat else .plain c

def literal (s : String) : Literal := s.toList.map piece

theorem digits?_control {n : Nat} (hn : n < 0x20) :
    Text.digits? 16 0 ['0', '0', Nat.digitChar (n / 16), Nat.digitChar (n % 16)] = some n := by
  interval_cases n <;> rfl

theorem written_piece (c : Char) : (piece c).Written (escapedChar c) := by
  unfold escapedChar
  split
  -- the seven characters that have a short escape come first
  iterate 7 exact .short rfl
  · rename_i hquote hslash hb ht hn hf hr
    by_cases hc : c.toNat < 0x20
    · have hlong : c ∉ ['\x08', '\t', '\n', '\x0c', '\r'] := by
        simpa using ⟨hb, ht, hn, hf, hr⟩
      have hpiece : piece c = .unit c.toNat := if_pos ⟨hc, hlong⟩
      rw [hpiece, if_pos hc]
      exact .unit (digits?_control hc)
    · have hpiece : piece c = .plain c := by simp [piece, hc]
      rw [hpiece, if_neg hc]
      exact .raw hquote hslash (Nat.not_lt.1 hc)

theorem chars?_piece (c : Char) (l : Literal) :
    Literal.chars? (piece c :: l) = (Literal.chars? l).map (c :: ·) := by
  unfold piece
  split
  · rename_i hc
    have hhigh : Literal.isHigh c.toNat = false := by simp [Literal.isHigh]; omega
    have hlow : Literal.isLow c.toNat = false := by simp [Literal.isLow]; omega
    rw [Literal.chars?.eq_def]
    simp [hhigh, hlow]
  · rfl

theorem written_literal (s : String) : (literal s).Written (s.toList.flatMap escapedChar) := by
  unfold literal
  induction s.toList with
  | nil => exact .nil
  | cons c cs ih => exact .cons (written_piece c) ih

@[simp]
theorem text?_literal (s : String) : (literal s).text? = some s := by
  have h : Literal.chars? (s.toList.map piece) = some s.toList := by
    induction s.toList with
    | nil => rfl
    | cons c cs ih => simp [chars?_piece, ih]
  simp [Literal.text?, literal, h]

theorem denotes_text (s : String) : Denotes (jsonText s) [.text (literal s)] :=
  .text (written_literal s)

theorem denotes_int (n : Int) : Denotes (jsonInt n) [.number (.ofNat (n < 0) n.natAbs)] := by
  unfold jsonInt
  by_cases hn : n < 0
  · simpa [hn] using Denotes.negative n.natAbs
  · simpa [hn] using Denotes.natural n.natAbs

theorem int?_natAbs (n : Int) : (Number.ofNat (n < 0) n.natAbs).int? = some n := by
  by_cases hzero : n = 0
  · subst hzero
    rfl
  · have hne : n.natAbs ≠ 0 := by omega
    by_cases hn : n < 0
    · have habs : -(n.natAbs : Int) = n := by omega
      simp only [Number.ofNat, Number.int?, if_neg hne, hn, decide_true, if_true, habs]
    · have habs : (n.natAbs : Int) = n := by omega
      simp only [Number.ofNat, Number.int?, if_neg hne, hn, decide_false, Bool.false_eq_true,
        if_false, habs]

def tree (c : Config) : Field → Tree
  | .term => (c.term.map fun t ↦ .text (literal t)).getD .null
  | .ttyPath => .text (literal c.ttyPath)
  | .affectedLines =>
    .number (.ofNat (c.affectedLines.toInt < 0) c.affectedLines.toInt.natAbs)
  | .useEnvSize => .truth c.useEnvSize

def member (c : Config) (f : Field) : Literal × Tree := (literal f.key, c.tree f)

variable (c : Config)

theorem denotes_value (f : Field) : Denotes (c.jsonValue f) (c.tree f).tokens := by
  cases f with
  | term =>
    unfold jsonValue tree
    cases c.term with
    | none => exact .null
    | some t => exact denotes_text t
  | ttyPath => exact denotes_text c.ttyPath
  | affectedLines => exact denotes_int c.affectedLines.toInt
  | useEnvSize => exact .truth c.useEnvSize

theorem denotes_member (f : Field) :
    Denotes (c.jsonMember f) (.text (literal f.key) :: .colon :: (c.tree f).tokens) := by
  -- no key has a character that is escaped
  have hkey : f.key.toList.flatMap escapedChar = f.key.toList := by cases f <;> decide
  have hname := denotes_text f.key
  rw [jsonText, hkey] at hname
  have hvalue := Denotes.mark ':' rfl (c.denotes_value f)
  have hall := hname.append hvalue (Lexer.stops_cons (.inr rfl))
  simpa [jsonMember] using hall

theorem denotes_members (fields : List Field) :
    Denotes ([','].intercalate (fields.map c.jsonMember))
      (Tree.memberTokens (fields.map c.member)) := by
  induction fields with
  | nil => exact .nil
  | cons f fields ih =>
    cases fields with
    | nil => simpa [Tree.memberTokens, member] using c.denotes_member f
    | cons g fields =>
      have hrest := Denotes.mark ',' rfl ih
      have hall := (c.denotes_member f).append hrest (Lexer.stops_cons (.inr rfl))
      simpa [Tree.memberTokens, member] using hall

theorem parse?_toJson :
    Tree.parse? c.toJson.toList = some (.object (Field.all.map c.member)) := by
  have hclose : Denotes ['\x7d'] [.closeObject] := .mark '\x7d' rfl .nil
  have hmembers := (c.denotes_members Field.all).append hclose (Lexer.stops_cons (.inr rfl))
  refine Tree.parse?_of_tokens ?_
  rw [toJson, String.toList_ofList, Tree.tokens]
  exact (hmembers.mark '\x7b' rfl).tokens?_eq

theorem ofKey?_key (f : Field) : Field.ofKey? f.key = some f := by cases f <;> decide

theorem ofTree?_members : ofTree? (.object (Field.all.map c.member)) = some c := by
  obtain ⟨term, ttyPath, affectedLines, useEnvSize⟩ := c
  cases term <;>
    simp [ofTree?, Field.all, member, ofMembers?, ofKey?_key, tree, Field.assign?, int?_natAbs,
      Text.toInt32?_toInt]

/-- The JSON text of settings is read back as these settings, whatever they are, and then fails only
in their validation. A file that holds the text gives the same. -/
theorem round_trip (path : String) :
    ofJson c.toJson = c.validate.map (fun _ ↦ c) ∧
      load path (.ok (Bytes.ofText c.toJson)) = c.validate.map (fun _ ↦ c) := by
  have hread : ofJson c.toJson = c.validate.map (fun _ ↦ c) := by
    simp only [ofJson, parse?_toJson, Option.bind_some, ofTree?_members, validate]
    cases c.fault? <;> rfl
  refine ⟨hread, ?_⟩
  simp only [load, Bytes.text?_ofText, hread]

end Terminfo.Config
