import Terminfo.Proofs.Fleet.Isolation
import Terminfo.Proofs.Session.Fixed
import Terminfo.Proofs.Session.Outcome

set_option autoImplicit false

namespace Terminfo

def Kind.query (kind : Kind) (name : String) : Query :=
  match kind with
  | .boolean => .flag name
  | .numeric => .number name
  | .string => .string name

namespace Entry

/-- What the typed queries have to answer, by what the entry has under the name. The two screen
dimensions are given from elsewhere. -/
inductive Answers (e : Entry) (lines columns : Int32) (name : String) : Kind → Answer → Prop
  | elsewhere {kind : Kind} : e.has kind name = false →
      Answers e lines columns name kind (.error (.wrongType name kind))
  | flag {b : Bool} : e.has .boolean name = true → e.flags.lookup name = some (.value b) →
      Answers e lines columns name .boolean (.ok (.truth b))
  | noFlag : e.has .boolean name = true → (∀ b, e.flags.lookup name ≠ some (.value b)) →
      Answers e lines columns name .boolean (.ok (.truth false))
  | lines : name = "lines" → Answers e lines columns name .numeric (.ok (.integer lines))
  | columns : name = "cols" → Answers e lines columns name .numeric (.ok (.integer columns))
  | number {n : Int32} : e.has .numeric name = true → name ≠ "lines" → name ≠ "cols" →
      e.numbers.lookup name = some (.value n) → 0 ≤ n →
      Answers e lines columns name .numeric (.ok (.integer n))
  | noNumber : e.has .numeric name = true → name ≠ "lines" → name ≠ "cols" →
      (∀ n, 0 ≤ n → e.numbers.lookup name ≠ some (.value n)) →
      Answers e lines columns name .numeric (.error (.absentOrCanceled name))
  | string {b : Bytes} : e.has .string name = true → e.strings.lookup name = some (.value b) →
      Answers e lines columns name .string (.ok (.bytes (Bytes.upToZero b)))
  | noString : e.has .string name = true → (∀ b, e.strings.lookup name ≠ some (.value b)) →
      Answers e lines columns name .string (.error (.absentOrCanceled name))

variable {e : Entry} {lines columns : Int32} {name : String} {kind kind' : Kind} {a a' : Answer}

theorem has_dimension (h : name = "lines" ∨ name = "cols") : e.has .numeric name = true := by
  rcases h with rfl | rfl <;> rfl

theorem Answers.unique (h : e.Answers lines columns name kind a)
    (h' : e.Answers lines columns name kind a') : a = a' := by
  have hdimension : name = "lines" ∨ name = "cols" → e.has .numeric name = true := has_dimension
  cases h <;> cases h' <;> grind

theorem Answers.wrongType_iff (h : e.Answers lines columns name kind a) :
    a = .error (.wrongType name kind) ↔ e.has kind name = false := by
  constructor
  · rintro rfl
    cases h
    assumption
  · exact fun hhas ↦ h.unique (.elsewhere hhas)

/-- A standard name is in one table in any case. -/
theorem has_unique (hone : e.mentions kind name → e.mentions kind' name → kind = kind')
    (h : e.has kind name = true) (h' : e.has kind' name = true) : kind = kind' := by
  unfold has at h h'
  cases hstandard : Kind.ofName? name with
  | some standard => simp_all
  | none =>
    rw [hstandard] at h h'
    exact hone h h'

end Entry

namespace Context

variable {c : Context} {name : String}

def answer (c : Context) (name : String) : Kind → Answer
  | .boolean => ((c.lookup name .boolean).asFlag name).map .truth
  | .numeric => ((c.lookup name .numeric).asNumber name).map .integer
  | .string => ((c.lookup name .string).asString name).map .bytes

theorem answer_of_not_has {kind : Kind} (h : c.entry.has kind name = false) :
    c.answer name kind = .error (.wrongType name kind) := by
  cases kind <;> simp only [answer, lookup_of_not_has h] <;> rfl

theorem answers_boolean (h : c.entry.has .boolean name = true) :
    c.entry.Answers c.lines c.columns name .boolean (c.answer name .boolean) := by
  rw [answer, lookup_boolean h, Entry.flag]
  cases hset : (c.entry.flags.lookup name).bind Setting.value? with
  | none => exact .noFlag h (Setting.bind_value?_eq_none_iff.1 hset)
  | some b => exact .flag h (Setting.bind_value?_eq_some_iff.1 hset)

theorem answers_numeric (hlines : 0 < c.lines) (hcolumns : 0 < c.columns)
    (h : c.entry.has .numeric name = true) :
    c.entry.Answers c.lines c.columns name .numeric (c.answer name .numeric) := by
  rw [answer, lookup_numeric h fun n hn ↦ number?_nonneg hlines hcolumns hn]
  unfold number?
  by_cases hl : name = "lines"
  · rw [if_pos hl]
    exact .lines hl
  · by_cases hc : name = "cols"
    · rw [if_neg hl, if_pos hc]
      exact .columns hc
    · rw [if_neg hl, if_neg hc, Entry.number?]
      cases hset : (c.entry.numbers.lookup name).bind Setting.value? with
      | none => exact .noNumber h hl hc fun n _ ↦ Setting.bind_value?_eq_none_iff.1 hset n
      | some n =>
        have hlookup := Setting.bind_value?_eq_some_iff.1 hset
        by_cases hpos : 0 ≤ n
        · rw [Option.filter, if_pos (decide_eq_true hpos)]
          exact .number h hl hc hlookup hpos
        · rw [Option.filter, if_neg (by simpa using hpos)]
          refine .noNumber h hl hc fun m hm hlookup' ↦ hpos ?_
          obtain rfl : m = n := by simpa [hlookup] using hlookup'.symm
          exact hm

theorem answers_string (h : c.entry.has .string name = true) :
    c.entry.Answers c.lines c.columns name .string (c.answer name .string) := by
  rw [answer, lookup_string h, Entry.string?]
  cases hset : (c.entry.strings.lookup name).bind Setting.value? with
  | none => exact .noString h (Setting.bind_value?_eq_none_iff.1 hset)
  | some b => exact .string h (Setting.bind_value?_eq_some_iff.1 hset)

theorem answers (hlines : 0 < c.lines) (hcolumns : 0 < c.columns) (name : String) (kind : Kind) :
    c.entry.Answers c.lines c.columns name kind (c.answer name kind) := by
  cases h : c.entry.has kind name with
  | false =>
    rw [answer_of_not_has h]
    exact .elsewhere h
  | true =>
    cases kind with
    | boolean => exact answers_boolean h
    | numeric => exact answers_numeric hlines hcolumns h
    | string => exact answers_string h

end Context

namespace OwnedSession

variable {o : OwnedSession} {c : Context} {d : Deed}

theorem answer_of_fixed (ho : o.fixed = some c) {name : String}
    (hname : Session.checkName name = .ok ()) (kind : Kind) :
    (o.ask (kind.query name)).1 = c.answer name kind := by
  cases kind <;> simp only [Kind.query, ask, lookup_of_fixed ho hname] <;> rfl

theorem fixed_perform (ho : o.fixed = some c) (hd : d ≠ .retire) :
    (o.perform d).2.fixed = some c := by
  cases d with
  | init h term fd =>
    obtain ⟨current, hcurrent, -⟩ := Option.map_eq_some_iff.1 ho
    simpa [perform, init, hcurrent] using ho
  | ask query => exact (fixed_ask query).trans ho
  | retire => exact absurd rfl hd

theorem fixed_after {deeds : List Deed} (ho : o.fixed = some c) (hd : ∀ d ∈ deeds, d ≠ .retire) :
    (o.after deeds).fixed = some c := by
  induction deeds generalizing o with
  | nil => exact ho
  | cons d deeds ih =>
    obtain ⟨hfirst, hrest⟩ := List.forall_mem_cons.1 hd
    exact ih (fixed_perform ho hfirst) hrest

theorem length_answers (o : OwnedSession) (deeds : List Deed) :
    (o.answers deeds).length = deeds.length := by
  induction deeds generalizing o with
  | nil => rfl
  | cons d deeds ih => simp [answers, ih]

end OwnedSession

theorem Record.Faithful.exists_fixed {r : Record} (hr : r.Faithful)
    (hdeeds : ∀ d ∈ r.deeds, d ≠ .retire) {h : Host} {term : Option String} {fd : Descriptor}
    {v : Value} (hmem : (.init h term fd, .ok v) ∈ r) :
    ∃ name entry, Switchboard.Acquires h term name entry ∧
      r.session.fixed = some (Context.load h name fd entry) := by
  obtain ⟨before, later, rfl⟩ := List.append_of_mem hmem
  simp only [Faithful, answers, deeds, List.map_append, List.map_cons,
    OwnedSession.answers_append, OwnedSession.answers] at hr
  -- the answers before the attempt are as many on both sides, so that its own is the next one
  have hlength : (List.map Prod.snd before).length =
      (({} : OwnedSession).answers (List.map Prod.fst before)).length := by
    simp [OwnedSession.length_answers]
  obtain ⟨hanswer, -⟩ := List.cons.inj (List.append_inj_right hr hlength)
  have hinit : ∃ n, ((({} : OwnedSession).after (before.map (·.1))).init h term fd).1 = .ok n := by
    cases hresult : ((({} : OwnedSession).after (before.map (·.1))).init h term fd).1 with
    | error e => simp [OwnedSession.perform, hresult, Except.map] at hanswer
    | ok n => exact ⟨n, rfl⟩
  obtain ⟨n, hn⟩ := hinit
  obtain ⟨name, entry, hacquires, hfixed⟩ := OwnedSession.fixed_init_of_ok hn
  refine ⟨name, entry, hacquires, ?_⟩
  have hlater : ∀ d ∈ later.map (·.1), d ≠ .retire := fun d hd ↦
    hdeeds d (by simp only [deeds, List.map_append, List.map_cons, List.mem_append, List.mem_cons,
      hd, or_true])
  have hsession : Record.session (before ++ (Deed.init h term fd, .ok v) :: later) =
      (((({} : OwnedSession).after (before.map (·.1))).init h term fd).2).after
        (later.map (·.1)) := by
    simp only [session, deeds, OwnedSession.after, List.map_append, List.map_cons,
      List.foldl_append, List.foldl_cons]
    rfl
  rw [hsession]
  exact OwnedSession.fixed_after hfixed hlater

namespace Chronicle

variable {k : Chronicle} {name : String}

def Unretired (k : Chronicle) : Prop := ∀ entry ∈ k.live, ∀ d ∈ entry.2.deeds, d ≠ .retire

theorem Unretired.note (hk : k.Unretired) {d : Deed} (hd : d ≠ .retire) {answer : Answer}
    {entry : String × Record} (he : entry ∈ k.note name d answer) :
    ∀ d ∈ entry.2.deeds, d ≠ .retire := by
  unfold Chronicle.note at he
  split at he
  · exact hk entry he
  · rename_i r h
    rcases Fleet.mem_of_mem_replace he with rfl | hold
    · have hr := hk (name, r) ((Fleet.perm_of_lookup h).mem_iff.2 List.mem_cons_self)
      intro d' hd'
      simp only [Record.deeds, List.map_append, List.mem_append, List.map_cons, List.map_nil,
        List.mem_singleton] at hd'
      rcases hd' with hold | rfl
      · exact hr d' hold
      · exact hd
    · exact hk entry hold

theorem Unretired.move (hk : k.Unretired) (m : Move) : (k.move m).Unretired := by
  intro entry he
  cases m with
  | create name =>
    rcases List.mem_cons.1 he with rfl | hold
    · simp [Record.deeds]
    · exact hk entry hold
  | establish name term fd =>
    simp only [Chronicle.move, liveAfter] at he
    split at he
    · rcases List.mem_cons.1 he with rfl | hold
      · simp [Record.deeds]
      · exact hk entry hold
    · exact hk entry he
  | init name term fd => exact hk.note (d := .init k.fleet.host term fd) (by simp) he
  | ask name query => exact hk.note (d := .ask query) (by simp) he
  | retire name => exact hk entry (Fleet.without_subset he)
  | retireHidden name => exact hk entry (Fleet.withoutHidden_subset he)
  | setEnv name value => exact hk entry he
  | resize fd rows cols => exact hk entry he

theorem Unretired.moveAll (hk : k.Unretired) (moves : List Move) : (k.moveAll moves).Unretired := by
  induction moves generalizing k with
  | nil => exact hk
  | cons m moves ih => exact ih (hk.move m)

theorem Sound.session_of_lookup (hk : k.Sound) {r : Record} (h : k.live.lookup name = some r) :
    k.fleet.view.session name = r.session := by
  rw [OwnedFleet.session, hk.sessions, Fleet.lookup_mapValues, h]
  rfl

end Chronicle

/-- A session answers the three typed queries from the entry that it was initialized on, whatever
else has happened in the process. For each name exactly the tables that have it do not answer
`wrongType`, and they are no more than one where the entry itself does not mention a name in two
tables. -/
theorem typed_lookups (host : Host) (allocator : Allocator) (moves : List Move) (label : String)
    (r : Record) (h : Host) (term : Option String) (fd : Descriptor) (v : Value) :
    let k := ({ fleet := .start host allocator } : Chronicle).moveAll moves
    k.live.lookup label = some r → (.init h term fd, .ok v) ∈ r →
      ∃ name e, Switchboard.Acquires h term name e ∧
        let sampled := Context.load h name fd e
        0 < sampled.lines ∧ 0 < sampled.columns ∧
          ∀ cap : String, cap ≠ "" → '\x00' ∉ cap.toList →
            let answer := fun kind : Kind ↦ (k.fleet.move (.ask label (kind.query cap))).1
            (∀ kind, e.Answers sampled.lines sampled.columns cap kind (answer kind)) ∧
              (∀ kind, answer kind = .error (.wrongType cap kind) ↔ e.has kind cap = false) ∧
              ((∀ kind kind', e.mentions kind cap → e.mentions kind' cap → kind = kind') →
                ∀ kind kind', answer kind ≠ .error (.wrongType cap kind) →
                  answer kind' ≠ .error (.wrongType cap kind') → kind = kind') ∧
              (∀ n, answer .numeric = .ok (.integer n) → 0 ≤ n) ∧
              ∀ b, e.has .string cap = true → e.strings.lookup cap = some (.value b) → 0 ∉ b →
                answer .string = .ok (.bytes b) := by
  intro k hlive hinit
  have hk : k.Sound := (Chronicle.sound_start host allocator).moveAll moves
  have hunretired : k.Unretired :=
    Chronicle.Unretired.moveAll (k := { fleet := .start host allocator }) (fun _ he ↦ nomatch he)
      moves
  have hmem : (label, r) ∈ k.live := (Fleet.perm_of_lookup hlive).mem_iff.2 List.mem_cons_self
  obtain ⟨name, e, hacquires, hfixed⟩ :=
    (hk.live _ hmem).exists_fixed (hunretired _ hmem) hinit
  have hlines := Context.lines_load_pos h name fd e
  have hcolumns := Context.columns_load_pos h name fd e
  refine ⟨name, e, hacquires, hlines, hcolumns, ?_⟩
  intro cap hname hzero answer
  have hanswer : ∀ kind, answer kind = (Context.load h name fd e).answer cap kind := by
    intro kind
    have hsession := hk.session_of_lookup hlive
    have hmove := Fleet.answer_move hk.fleet (.ask label (kind.query cap))
    rw [OwnedFleet.move, hsession] at hmove
    exact hmove.trans
      (OwnedSession.answer_of_fixed hfixed (Session.checkName_ok hname hzero) kind)
  have hanswers : ∀ kind, e.Answers (Context.load h name fd e).lines
      (Context.load h name fd e).columns cap kind (answer kind) := fun kind ↦
    hanswer kind ▸ Context.answers hlines hcolumns cap kind
  refine ⟨hanswers, fun kind ↦ (hanswers kind).wrongType_iff, ?_, ?_, ?_⟩
  · intro hone kind kind' hk hk'
    have hhas : ∀ kind, answer kind ≠ .error (.wrongType cap kind) → e.has kind cap = true :=
      fun kind hne ↦ by simpa using mt (hanswers kind).wrongType_iff.2 hne
    exact Entry.has_unique (hone kind kind') (hhas kind hk) (hhas kind' hk')
  · intro n hn
    have hnumber := hanswers .numeric
    rw [hn] at hnumber
    cases hnumber with
    | lines _ => exact Int32.le_of_lt hlines
    | columns _ => exact Int32.le_of_lt hcolumns
    | number _ _ _ _ hpos => exact hpos
  · intro b hhas hset hzero
    rw [(hanswers .string).unique (.string hhas hset), Bytes.upToZero_eq_self hzero]

theorem typed_lookups_extended :
    let entry : Entry :=
      { numbers := [("it", .canceled), ("cols", .value 132)]
        strings := [("bel", .value []), ("E3", .value [27, 0, 91])] }
    let host : Host :=
      { env := [("COLUMNS", Bytes.ofText "0x50")], entries := [("x", some entry), ("y", some {})] }
    let moves : List Move :=
      [.create "s", .init "s" (some "x") 1, .establish "t" (some "y") 1,
        .setEnv "COLUMNS" (some (Bytes.ofText "90")), .ask "t" (.flag "am")]
    let k := ({ fleet := .start host .ascending } : Chronicle).moveAll moves
    let answer := fun (cap : String) (kind : Kind) ↦ (k.fleet.move (.ask "s" (kind.query cap))).1
    answer "bel" .string = .ok (.bytes []) ∧ answer "E3" .string = .ok (.bytes [27]) ∧
      answer "it" .numeric = .error (.absentOrCanceled "it") ∧
      answer "cols" .numeric = .ok (.integer 80) ∧
      answer "E3" .boolean = .error (.wrongType "E3" .boolean) ∧
      ∀ kind, answer "E4" kind = .error (.wrongType "E4" kind) := by
  intro entry host moves k answer
  have hlive : k.live.lookup "s" =
      some [(.init host (some "x") 1, .ok (.integer 0))] := rfl
  obtain ⟨name, e, hacquires, -, -, hanswers⟩ :=
    typed_lookups host .ascending moves "s" _ host (some "x") 1 _ hlive List.mem_cons_self
  obtain rfl : Bytes.ofText "x" = name := Except.ok.inj hacquires.requested
  obtain rfl : entry = e := Option.some.inj hacquires.found
  obtain ⟨hbel, -⟩ := hanswers "bel" (by decide) (by decide)
  obtain ⟨hit, -⟩ := hanswers "it" (by decide) (by decide)
  obtain ⟨hcols, -⟩ := hanswers "cols" (by decide) (by decide)
  obtain ⟨hE3, -⟩ := hanswers "E3" (by decide) (by decide)
  obtain ⟨-, hE4, -⟩ := hanswers "E4" (by decide) (by decide)
  refine ⟨(hbel .string).unique (.string (b := []) rfl rfl),
    (hE3 .string).unique (.string (b := [27, 0, 91]) rfl rfl),
    (hit .numeric).unique (.noNumber rfl (by decide) (by decide) (by simp [entry])),
    (hcols .numeric).unique (.columns rfl), (hE3 .boolean).unique (.elsewhere rfl), ?_⟩
  exact fun kind ↦ (hE4 kind).2 (by cases kind <;> rfl)

end Terminfo
