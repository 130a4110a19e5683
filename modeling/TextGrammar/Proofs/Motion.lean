/-
How runs go over tokens, and what they report.

`Obeys P Q c r` says three things about a run from the cursor `c`: it goes over some of the tokens ahead, its error
satisfies `P` if it has one, and its remarks satisfy `Q`. Runs that do so are a `RunRelation` (`obeying`), so it is
enough to look at the errors and remarks themselves.

`Takes p c` says that the run of `p` goes over the next token at least. Where a construct opens its body steps over a
mark first, so it does that also if it fails, as long as one level is left for it.

Results:
- `construct_obeys`: constructs obey, whatever the limit and the levels left;
- `orderly_construct`, `orderly_block`: below the top level the cursor goes over tokens ahead, the index counts them,
  the depth comes back to what it was, and no remark is made about a stray token;
- `takes_construct`, `takes_block`: a construct or a block takes the token that it starts with.
-/
import TextGrammar.Proofs.Lockstep

namespace TextGrammar

open TextGrammar.Parser

/-- the run goes over tokens ahead, its error satisfies `P` and its remarks satisfy `Q` -/
structure Obeys (P : ParseError → Prop) (Q : Remark → Prop) (c : Cursor) {α : Type} (r : Run α) : Prop where
  reaches : c.Reaches r.cursor
  error : ∀ e, r.result = .error e → P e
  remarks : ∀ q ∈ r.remarks, Q q

section

variable {P : ParseError → Prop} {Q : Remark → Prop} {α β : Type} {c d : Cursor}

theorem obeys_ok {a : α} {rs : List Remark} (hrs : ∀ q ∈ rs, Q q) : Obeys P Q c ⟨.ok a, c, rs⟩ :=
  ⟨.refl c, fun _ he => (by cases he), hrs⟩

theorem obeys_error {e : ParseError} (he : P e) : Obeys P Q c (⟨.error e, c, []⟩ : Run α) :=
  ⟨.refl c, fun _ h => Except.error.inj h ▸ he, fun _ hq => absurd hq List.not_mem_nil⟩

theorem Obeys.gives {p : Parser α} {a : α} (h : Obeys P Q c (p c)) (hp : Gives p c a d) : c.Reaches d :=
  hp.2 ▸ h.reaches

theorem Obeys.bind {p : Parser α} {f : α → Parser β} (h : Obeys P Q c (p c))
    (hf : ∀ a d, Gives p c a d → Obeys P Q d (f a d)) : Obeys P Q c ((p >>= f) c) := by
  have hr := reaches_bind h.reaches fun a d hd => (hf a d hd).reaches
  obtain ⟨-, he, hq⟩ := h
  rcases hp : p c with ⟨e | a, d, rs⟩ <;> rw [hp] at he hq
  · rw [bind_apply_error hp] at hr ⊢
    exact ⟨hr, fun e' h => he e' (congrArg Except.error (Except.error.inj h)), hq⟩
  · obtain ⟨-, he', hq'⟩ := hf a d ⟨by rw [hp], by rw [hp]⟩
    rw [bind_apply_ok hp] at hr ⊢
    exact ⟨hr, he', List.forall_mem_append.2 ⟨hq, hq'⟩⟩

end

section

variable {P : ParseError → Prop} {Q : Remark → Prop} (At : Cursor → Prop)
  (hr : ∀ {c d}, At c → c.Reaches d → At d) (he : ∀ {c e}, e.Arises At c → P e) (hq : ∀ {q}, q.isStray = false → Q q)

/-- runs that obey, from cursors such that every run from one of them leads to another one -/
def obeying : RunRelation where
  At := At
  other := id
  keeps := keepsAhead_id
  Rel c r _ := Obeys P Q c r
  at_next hc hn := hr hc (Cursor.reaches_next hn)
  pure _ _ := obeys_ok fun _ hq => absurd hq List.not_mem_nil
  fail h := obeys_error (he h)
  remark _ h := obeys_ok (List.forall_mem_singleton.2 (hq h.not_stray))
  advance hc h := ⟨(Cursor.reaches_next hc).trans h.reaches, h.error, h.remarks⟩
  bind hc hp hf := hp.bind fun a d hd => hf a d (hr hc (hp.gives hd)) hd
  deeper h := ⟨h.reaches.above, h.error, h.remarks⟩

include hr he hq

/-- constructs obey, if the error about too deep nesting is one that may arise -/
theorem construct_obeys (hb : ∀ {c}, At c → At c.below) {limit : Nat} (hl : P (.tooDeep limit)) (n : Nat)
    (k : Construct) {c : Cursor} (hc : At c) : Obeys P Q c (construct limit n k c) := by
  induction n generalizing k c with
  | zero => exact obeys_error hl
  | succ n ih =>
    let L := (obeying At hr he hq).lockstep
    have inside (k : Construct) : L.InStep (construct limit n k) (construct limit n k) := fun c hc => ih k hc
    exact Lockstep.construct_inStep (L := L) inside k fun hn => hr (hb hc) (Cursor.reaches_next hn)

end

/-! ## Forward -/

/-- runs over tokens ahead -/
def forward : RunRelation where
  At _ := True
  other := id
  keeps := keepsAhead_id
  Rel c r _ := c.Reaches r.cursor
  at_next _ _ := trivial
  pure _ c := .refl c
  fail _ := .refl _
  remark c _ := .refl c
  advance hc h := (Cursor.reaches_next hc).trans h
  bind _ hp hf := reaches_bind hp fun a d hd => hf a d trivial hd
  deeper h := h.above

/-- every run of `p` goes over tokens ahead -/
abbrev Forward {α : Type} (p : Parser α) : Prop := forward.lockstep.InStep p p

/-! ## Below the top level -/

/-- every run of `p` goes over tokens ahead and makes no remark about a stray token -/
def Orderly {α : Type} (p : Parser α) : Prop :=
  ∀ c, Obeys (fun _ => True) (fun q => q.isStray = false) c (p c)

theorem Orderly.gives {α : Type} {p : Parser α} {c d : Cursor} {a : α} (hp : Orderly p) (h : Gives p c a d) :
    c.Reaches d :=
  (hp c).gives h

/-- orderly runs -/
def orderly : Lockstep :=
  (obeying (P := fun _ => True) (Q := fun q => q.isStray = false) (fun _ => True) (fun _ _ => trivial)
    (fun _ => trivial) id).lockstep

theorem orderly_construct (limit n : Nat) (k : Construct) : Orderly (construct limit n k) :=
  fun _ => construct_obeys (fun _ => True) (fun _ _ => trivial) (fun _ => trivial) id (fun _ => trivial) trivial n k
    trivial

theorem orderly_fragment (limit n : Nat) : Orderly (fragment (construct limit n)) := by
  have inside (k : Construct) : orderly.InStep (construct limit n k) (construct limit n k) :=
    fun c _ => orderly_construct limit n k c
  exact fun c => Lockstep.inStep_fragment inside c trivial

theorem orderly_block (limit n : Nat) : Orderly (block (construct limit n)) := by
  have inside (k : Construct) : orderly.InStep (construct limit n k) (construct limit n k) :=
    fun c _ => orderly_construct limit n k c
  exact fun c => Lockstep.inStep_block inside (construct_sound limit n) (construct_sound limit n) c trivial

theorem Orderly.forward {α : Type} {p : Parser α} (hp : Orderly p) : Forward p :=
  fun c _ => (hp c).reaches

/-! ## Taking a token -/

/-- the run goes over the next token, and perhaps over more, also if it fails -/
def Takes {α : Type} (p : Parser α) (c : Cursor) : Prop :=
  c.next.Reaches (p c).cursor

section

variable {α β : Type} {c : Cursor}

theorem Takes.bind {p : Parser α} {f : α → Parser β} (h : Takes p c) (hf : ∀ a, Forward (f a)) : Takes (p >>= f) c :=
  reaches_bind h fun a d _ => hf a d trivial

theorem Takes.many {p : Parser (Option α)} (hp : Advances p) (hf : Forward p) (h : Takes p c) : Takes (many p) c := by
  rw [many_eq hp]
  refine h.bind fun o => ?_
  cases o with
  | none => exact Lockstep.inStep_pure _
  | some a => exact (Lockstep.inStep_many hp hp hf).map _

theorem takes_advance : Takes advance c :=
  .refl c.next

theorem takes_expect {k : Kind} {t : Token} (hk : k.token? = some t) (hc : c.ahead.head? = some t) :
    Takes (expect k) c := by
  have h : Gives (expect k) c () c.next := (gives_expect hk).2 ⟨hc, rfl⟩
  rw [Takes, h.2]
  exact .refl c.next

theorem takes_weight (hc : c.ahead.head? = some (.mark .colon)) : Takes weight c := by
  refine (takes_expect rfl hc).bind fun _ => Lockstep.inStep_peek_bind fun d _ => ?_
  split
  · rename_i h
    exact forward.lockstep.rel_advance (by rintro hd; simp [hd] at h) (forward.lockstep.rel_pure _ _)
  · exact forward.lockstep.rel_bind trivial (forward.lockstep.rel_remark d trivial) fun _ e _ _ =>
      forward.lockstep.rel_pure _ e

end

section

variable {limit n : Nat} {c : Cursor}

/-- a construct with a level left takes the mark that it opens with -/
theorem takes_construct {k : Construct} (hc : c.ahead.head? = some (.mark k.opening)) :
    Takes (construct limit (n + 1) k) c := by
  have inside (k : Construct) : Forward (construct limit n k) := (orderly_construct limit n k).forward
  obtain ⟨rest, _, hbody, -, hrest⟩ :=
    Lockstep.exists_rest inside (construct_sound limit n) (construct_sound limit n) k
  have opened : Takes (expect (.mark k.opening)) c.below := takes_expect (k := .mark k.opening) rfl hc
  have h : c.next.below.Reaches (k.body (construct limit n) c.below).cursor := by
    rw [hbody]
    exact opened.bind fun _ => hrest
  exact h.above

theorem takes_fragment (hc : starts c.ahead = true) : Takes (fragment (construct limit (n + 1))) c := by
  rw [← isSome_startAt (construct limit (n + 1))] at hc
  obtain ⟨p, hp⟩ := Option.isSome_iff_exists.1 hc
  have takes : Takes p c := by
    rcases startAt_cases hp with ⟨k, hk, rfl⟩ | ⟨us, hus, rfl⟩ | ⟨s, us, hus, rfl⟩ | ⟨x, s, us, hus, rfl⟩
    · exact takes_construct (head?_of_opens hk)
    · exact takes_weight (Cursor.head?_ahead hus)
    · exact takes_advance.bind fun _ => Lockstep.inStep_pure _
    · exact takes_advance.bind fun _ => Lockstep.inStep_pure _
  rw [Takes, fragment_apply, hp]
  exact takes.bind fun ns => Lockstep.inStep_pure _

/-- a block takes the token that it starts with, if there is a level left for a construct in it -/
theorem takes_block (hc : starts c.ahead = true) : Takes (block (construct limit (n + 1))) c := by
  have many : Takes (many (fragment (construct limit (n + 1)))) c :=
    (takes_fragment hc).many (advances_fragment (construct_sound limit _)) (orderly_fragment limit _).forward
  exact many.bind fun _ => Lockstep.inStep_pure _

end

end TextGrammar
