import Terminfo.Proofs.Config.RoundTrip
import Terminfo.Proofs.Json.Grammar
import Mathlib.Data.List.Forall2

set_option autoImplicit false

namespace Terminfo

open Json

/-- The same value, as far as a field can tell: strings count by their text, and one list or object
for another. -/
def Json.Tree.Alike : Tree → Tree → Prop
  | .text l, .text l' => l.text? = l'.text?
  | .list _, .list _ => True
  | .object _, .object _ => True
  | t, u => t = u

namespace Config

namespace Field

theorem forall_iff {p : Field → Prop} :
    (∀ f, p f) ↔ p .term ∧ p .ttyPath ∧ p .affectedLines ∧ p .useEnvSize :=
  ⟨fun h ↦ ⟨h _, h _, h _, h _⟩, fun ⟨h₁, h₂, h₃, h₄⟩ f ↦ by cases f <;> assumption⟩

def Agrees (f : Field) (c d : Config) : Prop :=
  match f with
  | .term => c.term = d.term
  | .ttyPath => c.ttyPath = d.ttyPath
  | .affectedLines => c.affectedLines = d.affectedLines
  | .useEnvSize => c.useEnvSize = d.useEnvSize

def Holds (f : Field) (t : Tree) (c : Config) : Prop :=
  match f, t with
  | .term, .null => c.term = none
  | .term, .text l => ∃ s, l.text? = some s ∧ c.term = some s
  | .ttyPath, .text l => l.text? = some c.ttyPath
  | .affectedLines, .number n => n.int? = some c.affectedLines.toInt
  | .useEnvSize, .truth b => c.useEnvSize = b
  | _, _ => False

variable {f g : Field} {c d : Config} {t u : Tree} {seen : List Field}

theorem agrees_all : (∀ f : Field, f.Agrees c d) ↔ c = d := by
  obtain ⟨term, ttyPath, affectedLines, useEnvSize⟩ := c
  obtain ⟨term', ttyPath', affectedLines', useEnvSize'⟩ := d
  simp [forall_iff, Agrees]

theorem agrees_congr {c' : Config} (h : f.Agrees c c') : f.Agrees c d ↔ f.Agrees c' d := by
  cases f <;> simp only [Agrees] at h ⊢ <;> rw [h]

theorem holds_congr (h : f.Agrees c d) : f.Holds t c ↔ f.Holds t d := by
  cases f <;> cases t <;> simp only [Agrees, Holds] at h ⊢ <;> rw [h]

theorem holds_alike (h : t.Alike u) : f.Holds t c ↔ f.Holds u c := by
  cases t <;> cases u <;> simp only [Tree.Alike, reduceCtorEq] at h
  case text.text => cases f <;> simp [Holds, h]
  case list.list | object.object => cases f <;> rfl
  case null.null => rfl
  case truth.truth | number.number => rw [h]

theorem assign?_eq_some_iff :
    f.assign? c t = some d ↔ f.Holds t d ∧ ∀ g ≠ f, g.Agrees c d := by
  obtain ⟨term, ttyPath, affectedLines, useEnvSize⟩ := c
  obtain ⟨term', ttyPath', affectedLines', useEnvSize'⟩ := d
  cases f <;> cases t <;>
    simp [assign?, Holds, forall_iff, Agrees, Option.bind_eq_some_iff,
      Text.toInt32?_eq_some_iff] <;>
    grind

def graft (f : Field) (c d : Config) : Config :=
  match f with
  | .term => { c with term := d.term }
  | .ttyPath => { c with ttyPath := d.ttyPath }
  | .affectedLines => { c with affectedLines := d.affectedLines }
  | .useEnvSize => { c with useEnvSize := d.useEnvSize }

theorem graft_agrees (f : Field) (c d : Config) : f.Agrees (f.graft c d) d := by
  cases f <;> rfl

theorem agrees_graft (hne : g ≠ f) (c d : Config) : g.Agrees c (f.graft c d) := by
  cases f <;> cases g <;> first | rfl | exact absurd rfl hne

theorem assign?_graft (h : f.Holds t d) (c : Config) : f.assign? c t = some (f.graft c d) :=
  assign?_eq_some_iff.2 ⟨(holds_congr (graft_agrees f c d)).2 h, fun _ hne ↦ agrees_graft hne c d⟩

theorem agrees_of_holds (h : f.Holds t c) (h' : f.Holds t d) : f.Agrees c d := by
  -- setting the field of `c` to `t` can have one result only
  have hgraft : f.graft c c = f.graft c d :=
    Option.some.inj ((assign?_graft h c).symm.trans (assign?_graft h' c))
  have hagrees := graft_agrees f c c
  rw [hgraft] at hagrees
  exact (agrees_congr hagrees).1 (graft_agrees f c d)

theorem ofKey?_eq_some_iff {key : String} : ofKey? key = some f ↔ key = f.key := by
  refine ⟨fun h ↦ ?_, fun h ↦ h ▸ ofKey?_key f⟩
  have hkey := List.find?_some h
  exact (of_decide_eq_true hkey).symm

def valuesOf (f : Field) (members : List (Literal × Tree)) : List Tree :=
  (members.filter fun m ↦ m.1.text? = some f.key).map (·.2)

theorem valuesOf_cons {key : Literal} {name : String} (hkey : key.text? = some name)
    (members : List (Literal × Tree)) :
    f.valuesOf ((key, t) :: members) =
      if ofKey? name = some f then t :: f.valuesOf members else f.valuesOf members := by
  by_cases hname : name = f.key <;> simp [valuesOf, hkey, ofKey?_eq_some_iff, hname]

/-- How the field comes out of the values that are given to it. -/
def Takes (f : Field) (seen : List Field) (c d : Config) : List Tree → Prop
  | [] => f.Agrees c d
  | [t] => f ∉ seen ∧ f.Holds t d
  | _ => False

variable {values : List Tree}

theorem takes_seen : f.Takes (f :: seen) c d values ↔ values = [] ∧ f.Agrees c d := by
  match values with
  | [] => simp [Takes]
  | [t] => simp [Takes]
  | t :: u :: values => simp [Takes]

theorem takes_cons :
    f.Takes seen c d (t :: values) ↔ f ∉ seen ∧ values = [] ∧ f.Holds t d := by
  cases values <;> simp [Takes]

theorem takes_congr {c' : Config} (hne : g ≠ f) (h : g.Agrees c c') :
    g.Takes (f :: seen) c' d values ↔ g.Takes seen c d values := by
  match values with
  | [] => exact (agrees_congr h).symm
  | [t] => simp [Takes, hne]
  | t :: u :: values => rfl

/-- Setting a field and leaving it alone from then on is to have one value more for it. -/
theorem exists_assign?_iff {values : Field → List Tree} :
    (f ∉ seen ∧ ∃ c', f.assign? c t = some c' ∧ ∀ g : Field, g.Takes (f :: seen) c' d (values g)) ↔
      ∀ g : Field, g.Takes seen c d (if f = g then t :: values g else values g) := by
  constructor
  · rintro ⟨hseen, c', hassign, hrest⟩ g
    obtain ⟨hholds, hothers⟩ := assign?_eq_some_iff.1 hassign
    by_cases hg : f = g
    · subst hg
      obtain ⟨hnone, hagrees⟩ := takes_seen.1 (hrest f)
      rw [if_pos rfl]
      exact takes_cons.2 ⟨hseen, hnone, (holds_congr hagrees).1 hholds⟩
    · rw [if_neg hg]
      exact (takes_congr (Ne.symm hg) (hothers g (Ne.symm hg))).1 (hrest g)
  · intro h
    have hf := h f
    rw [if_pos rfl] at hf
    obtain ⟨hseen, hnone, hholds⟩ := takes_cons.1 hf
    refine ⟨hseen, f.graft c d, assign?_graft hholds c, fun g ↦ ?_⟩
    by_cases hg : f = g
    · subst hg
      exact takes_seen.2 ⟨hnone, graft_agrees f c d⟩
    · have hother := h g
      rw [if_neg hg] at hother
      exact (takes_congr (Ne.symm hg) (agrees_graft (Ne.symm hg) c d)).2 hother

end Field

variable {c d : Config} {seen : List Field}

theorem ofMembers?_eq_some_iff {members : List (Literal × Tree)} :
    ofMembers? c seen members = some d ↔
      (∀ m ∈ members, m.1.text? ≠ none) ∧
        ∀ f : Field, f.Takes seen c d (f.valuesOf members) := by
  -- each member that is a field changes `c` and `seen`, so both vary along the induction
  induction members generalizing c seen with
  | nil => simp [ofMembers?, Field.valuesOf, Field.Takes, Field.agrees_all]
  | cons m members ih =>
    obtain ⟨key, t⟩ := m
    cases hkey : key.text? with
    | none => simp [ofMembers?, hkey]
    | some name =>
      have hvalues (g : Field) := Field.valuesOf_cons (f := g) (t := t) hkey members
      cases hfield : Field.ofKey? name with
      | none => simp [ofMembers?, hkey, hfield, ih, hvalues]
      | some f =>
        have hstep : ofMembers? c seen ((key, t) :: members) = some d ↔
            f ∉ seen ∧ ∃ c', f.assign? c t = some c' ∧
              ofMembers? c' (f :: seen) members = some d := by
          by_cases hseen : f ∈ seen <;>
            simp [ofMembers?, hkey, hfield, hseen, Option.bind_eq_some_iff]
        have htakes : (∀ g : Field, g.Takes seen c d (g.valuesOf ((key, t) :: members))) ↔
            f ∉ seen ∧ ∃ c', f.assign? c t = some c' ∧
              ∀ g : Field, g.Takes (f :: seen) c' d (g.valuesOf members) := by
          simp only [hvalues, hfield, Option.some.injEq]
          exact Field.exists_assign?_iff.symm
        rw [hstep, htakes]
        simp only [ih, List.forall_mem_cons, hkey]
        grind

def named (fields : List Field) (items : List Tree) : List (Literal × Tree) :=
  (fields.zip items).map fun p ↦ (literal p.1.key, p.2)

theorem ofItems?_eq_ofMembers? {fields : List Field} {items : List Tree} (hnodup : fields.Nodup)
    (hseen : ∀ f ∈ fields, f ∉ seen) (hlen : items.length ≤ fields.length) :
    ofItems? c fields items = ofMembers? c seen (named fields items) := by
  induction fields generalizing c seen items with
  | nil =>
    obtain rfl : items = [] := List.length_eq_zero_iff.1 (Nat.le_zero.1 hlen)
    rfl
  | cons f fields ih =>
    cases items with
    | nil => rfl
    | cons t items =>
      obtain ⟨hf, hfields⟩ := List.forall_mem_cons.1 hseen
      obtain ⟨hnot, hnodup⟩ := List.nodup_cons.1 hnodup
      have hnext : ∀ g ∈ fields, g ∉ f :: seen := by
        intro g hg
        rw [List.mem_cons, not_or]
        exact ⟨fun h ↦ hnot (h ▸ hg), hfields g hg⟩
      have hrest (c' : Config) := ih (c := c') hnodup hnext (Nat.le_of_succ_le_succ hlen)
      simp [ofItems?, named, ofMembers?, ofKey?_key, hf, hrest]

theorem ofItems?_of_lt {fields : List Field} {items : List Tree}
    (hlen : fields.length < items.length) : ofItems? c fields items = none := by
  induction fields generalizing c items with
  | nil =>
    cases items with
    | nil => exact absurd hlen (Nat.lt_irrefl 0)
    | cons t items => rfl
  | cons f fields ih =>
    cases items with
    | nil => exact absurd hlen (Nat.not_lt_zero _)
    | cons t items =>
      have hrest (c' : Config) := ih (c := c') (Nat.lt_of_succ_lt_succ hlen)
      simp [ofItems?, hrest]

abbrev Assignment := Field → Option Tree

def Field.Fits (f : Field) (value? : Option Tree) (c : Config) : Prop :=
  match value? with
  | none => f.Agrees {} c
  | some t => f.Holds t c

namespace Assignment

variable (a : Assignment)

def Describes (c : Config) : Prop := ∀ f : Field, f.Fits (a f) c

/-- Each assigned field is given once, beside any members whose keys are no field. -/
def GivenBy (members : List (Literal × Tree)) : Prop :=
  (∀ m ∈ members, m.1.text? ≠ none) ∧
    ∀ f : Field, List.Forall₂ Tree.Alike (a f).toList (f.valuesOf members)

/-- The items are the values of the assigned fields, which come before the other ones. -/
def ListedBy (items : List Tree) : Prop :=
  items.length ≤ Field.all.length ∧
    ∀ f : Field, Option.Rel Tree.Alike (a f) items[Field.all.idxOf f]?

variable {a}

theorem describes_inj (h : a.Describes c) (h' : a.Describes d) : c = d := by
  refine Field.agrees_all.1 fun f ↦ ?_
  have hc := h f
  have hd := h' f
  cases hvalue : a f with
  | none =>
    rw [hvalue] at hc hd
    exact (Field.agrees_congr hc).1 hd
  | some t =>
    rw [hvalue] at hc hd
    exact Field.agrees_of_holds hc hd

theorem describes_iff_takes {members : List (Literal × Tree)}
    (h : ∀ f : Field, List.Forall₂ Tree.Alike (a f).toList (f.valuesOf members)) :
    a.Describes c ↔ ∀ f : Field, f.Takes [] {} c (f.valuesOf members) := by
  refine forall_congr' fun f ↦ ?_
  have hf := h f
  cases hvalue : a f with
  | none =>
    rw [hvalue] at hf
    rw [List.forall₂_nil_left_iff.1 hf]
    rfl
  | some t =>
    rw [hvalue] at hf
    obtain ⟨u, rest, hu, hrest, hvalues⟩ := List.forall₂_cons_left_iff.1 hf
    rw [hvalues, List.forall₂_nil_left_iff.1 hrest]
    simpa [Field.Fits, Field.Takes] using Field.holds_alike hu

theorem GivenBy.ofTree? {members : List (Literal × Tree)} (h : a.GivenBy members) :
    ofTree? (.object members) = some c ↔ a.Describes c := by
  rw [describes_iff_takes h.2, Config.ofTree?, ofMembers?_eq_some_iff]
  exact and_iff_right h.1

theorem valuesOf_named (f : Field) {items : List Tree} (h : items.length ≤ Field.all.length) :
    f.valuesOf (named Field.all items) = items[Field.all.idxOf f]?.toList := by
  match items with
  | [] | [t] | [t, u] | [t, u, v] | [t, u, v, w] =>
    cases f <;> simp [Field.all, named, Field.valuesOf, Field.key]
  | t :: u :: v :: w :: x :: items =>
    have hlen : items.length + 5 ≤ 4 := h
    omega

theorem ListedBy.givenBy {items : List Tree} (h : a.ListedBy items) :
    a.GivenBy (named Field.all items) := by
  constructor
  · intro m hm
    obtain ⟨p, _, rfl⟩ := List.mem_map.1 hm
    simp
  · intro f
    have hf := h.2 f
    rw [valuesOf_named f h.1]
    generalize a f = value?, items[Field.all.idxOf f]? = item? at hf ⊢
    cases hf with
    | none => exact .nil
    | some ht => exact .cons ht .nil

theorem ListedBy.ofTree? {items : List Tree} (h : a.ListedBy items) :
    ofTree? (.list items) = some c ↔ a.Describes c := by
  rw [← h.givenBy.ofTree?, Config.ofTree?, Config.ofTree?,
    ofItems?_eq_ofMembers? (by decide) (fun _ _ ↦ List.not_mem_nil) h.1]

theorem exists_described (a : Assignment) :
    ∃ c? : Option Config, ∀ c, c? = some c ↔ a.Describes c := by
  by_cases h : ∃ c, a.Describes c
  · obtain ⟨c, hc⟩ := h
    refine ⟨some c, fun d ↦ ?_⟩
    rw [Option.some.injEq]
    exact ⟨fun hd ↦ hd ▸ hc, fun hd ↦ describes_inj hc hd⟩
  · have hnone (c : Config) : ¬a.Describes c := fun hc ↦ h ⟨c, hc⟩
    exact ⟨none, fun c ↦ by simp [hnone c]⟩

end Assignment

def judged (c? : Option Config) : Except Error Config :=
  match c? with
  | none => .error (.config .malformed)
  | some c => c.validate.map fun _ ↦ c

variable {t : Tree} {text : String}

theorem ofJson_eq_judged (h : (Phrase.value t).Written text.toList) :
    ofJson text = judged (ofTree? t) := by
  rw [ofJson, h.parse?_eq, Option.bind_some]
  cases ofTree? t with
  | none => rfl
  | some c =>
    simp only [judged, validate]
    cases c.fault? <;> rfl

theorem ofTree?_of_repeated {f : Field} {members : List (Literal × Tree)}
    (h : 1 < (f.valuesOf members).length) : ofTree? (.object members) = none := by
  refine Option.eq_none_iff_forall_ne_some.2 fun c hc ↦ ?_
  have htakes := (ofMembers?_eq_some_iff.1 hc).2 f
  match hvalues : f.valuesOf members with
  | [] | [t] => simp [hvalues] at h
  | t :: u :: values =>
    rw [hvalues] at htakes
    exact htakes

/-- The outcome of reading a JSON text is decided by the values that it assigns to the fields: by
nothing else that an object holds, by no order or spelling, and in a list as in an object. A field
that is given twice, or a list with more items than there are fields, is never read. -/
theorem assignment_decides :
    (∀ a : Assignment, ∃ c? : Option Config, (∀ c, c? = some c ↔ a.Describes c) ∧
      (∀ members (text : String), a.GivenBy members →
        (Phrase.value (.object members)).Written text.toList → ofJson text = judged c?) ∧
      ∀ items (text : String), a.ListedBy items →
        (Phrase.value (.list items)).Written text.toList → ofJson text = judged c?) ∧
    (∀ (f : Field) members (text : String), 1 < (f.valuesOf members).length →
      (Phrase.value (.object members)).Written text.toList →
      ofJson text = .error (.config .malformed)) ∧
    ∀ items (text : String), Field.all.length < items.length →
      (Phrase.value (.list items)).Written text.toList →
      ofJson text = .error (.config .malformed) := by
  refine ⟨fun a ↦ ?_, fun f members text hmany hw ↦ ?_, fun items text hlong hw ↦ ?_⟩
  · obtain ⟨c?, hc⟩ := a.exists_described
    refine ⟨c?, hc, fun members text hgiven hw ↦ ?_, fun items text hlisted hw ↦ ?_⟩
    · have hread : ofTree? (.object members) = c? :=
        Option.ext fun c ↦ hgiven.ofTree?.trans (hc c).symm
      rw [ofJson_eq_judged hw, hread]
    · have hread : ofTree? (.list items) = c? :=
        Option.ext fun c ↦ hlisted.ofTree?.trans (hc c).symm
      rw [ofJson_eq_judged hw, hread]
  · rw [ofJson_eq_judged hw, ofTree?_of_repeated hmany]
    rfl
  · rw [ofJson_eq_judged hw, ofTree?, ofItems?_of_lt hlong]
    rfl

theorem assignment_decides_vt100 :
    let a : Assignment := fun f ↦ if f = .term then some (.text (literal "vt100")) else none
    let members := [
      (literal "x", .list [.number ⟨false, 1, .exponentDigits⟩, .text [.unit 0xd800]]),
      (.unit 0x74 :: literal "erm", .text (literal "vt100"))]
    let items := [.text (literal "vt100")]
    let object := "\x7b\"x\":[1E+999 ,\"\\ud800\"],\n \"\\u0074erm\": \"vt100\"\x7d"
    let list := "[\"vt100\"]"
    (a.GivenBy members ∧ (Phrase.value (.object members)).Written object.toList) ∧
      (a.ListedBy items ∧ (Phrase.value (.list items)).Written list.toList) ∧
      ofJson object = .ok { term := some "vt100" } ∧
      ofJson list = .ok { term := some "vt100" } := by
  intro a members items object list
  have hgiven : a.GivenBy members := by
    refine ⟨by decide, fun f ↦ ?_⟩
    cases f with
    | term => exact .cons rfl .nil
    | ttyPath | affectedLines | useEnvSize => exact .nil
  have hlisted : a.ListedBy items := by
    refine ⟨by decide, fun f ↦ ?_⟩
    cases f with
    | term => exact .some rfl
    | ttyPath | affectedLines | useEnvSize => exact .none
  have htext : (Phrase.value (.text (literal "vt100"))).Written "\"vt100\"".toList := by
    convert Phrase.Written.text (written_literal "vt100") using 1
    decide
  have hlist : (Phrase.value (.list items)).Written list.toList := by
    convert Phrase.Written.list (.lastItem htext) using 1
    decide
  have hobject : (Phrase.value (.object members)).Written object.toList := by
    have hone : Number.Written ⟨false, 1, .whole⟩ ['1'] :=
      .whole false (by decide) (by decide : Digits ['1'])
    have hnumber := hone.exponent (by decide) (by decide : 'E' ∈ ['e', 'E'])
      (by decide : ['+'] ∈ [[], ['+'], ['-']]) (by decide : Digits ['9', '9', '9'])
    have hhalf : Literal.Written [.unit 0xd800] "\\ud800".toList := .cons (.unit rfl) .nil
    have hunit : Piece.Written (.unit 0x74) "\\u0074".toList := .unit rfl
    have hkey := Literal.Written.cons hunit (written_literal "erm")
    have hitem := Phrase.Written.spaced (by decide : Blank []) (.number hnumber)
      (by decide : Blank [' '])
    have hmember := Phrase.Written.named (by decide : Blank []) (written_literal "x")
      (by decide : Blank []) (.list (.item (List.cons_ne_nil _ _) hitem (.lastItem (.text hhalf))))
    have hvalue := Phrase.Written.spaced (by decide : Blank [' ']) htext (by decide : Blank [])
    have hterm := Phrase.Written.named (by decide : Blank ['\n', ' ']) hkey
      (by decide : Blank []) hvalue
    convert Phrase.Written.object (.another (List.cons_ne_nil _ _) hmember (.lastMember hterm))
      using 1
    decide
  have hdescribes : a.Describes { term := some "vt100" } :=
    Field.forall_iff.2 ⟨⟨_, text?_literal _, rfl⟩, rfl, rfl, rfl⟩
  obtain ⟨c?, hc, hmembers, hitems⟩ := assignment_decides.1 a
  have hjudged : judged c? = .ok { term := some "vt100" } := by
    rw [(hc _).2 hdescribes]
    rfl
  exact ⟨⟨hgiven, hobject⟩, ⟨hlisted, hlist⟩, (hmembers _ _ hgiven hobject).trans hjudged,
    (hitems _ _ hlisted hlist).trans hjudged⟩

end Config

end Terminfo
