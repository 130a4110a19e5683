/-
What a parser gives where it succeeds.

`Gives p c a d` says that `p`, run at the cursor `c`, yields `a` and leaves the cursor `d`. The lemmas named `gives_*`
turn it into conditions on the tokens ahead, combinator by combinator and then parser by parser; later modules cite
these and never unfold a parser. Repetition has two: `gives_many` is one round, and `many_induction` a whole run.
-/
import TextGrammar.Document

namespace TextGrammar

/-- the only token of a kind without values -/
def Kind.token? : Kind → Option Token
  | mark m => some (.mark m)
  | space => some .space
  | operator o => some (.operator o)
  | keyword k => some (.keyword k)
  | text | number => none

theorem Token.kind_eq_iff {k : Kind} {t u : Token} (hk : k.token? = some t) : u.kind = k ↔ u = t := by
  cases k <;> cases u <;> cases hk <;> simp [kind]

namespace Cursor

variable {c : Cursor} {t : Token} {ts : List Token}

/-- the cursor inside one construct more -/
def below (c : Cursor) : Cursor := { c with depth := c.depth + 1 }

/-- the cursor outside one construct -/
def above (c : Cursor) : Cursor := { c with depth := c.depth - 1 }

theorem ahead_eq (h : c.ahead.head? = some t) : c.ahead = t :: c.next.ahead := by
  obtain ⟨ts, hts⟩ := List.head?_eq_some_iff.1 h
  simp [next, hts]

theorem next_ahead (h : c.ahead = t :: ts) : c.next.ahead = ts := by
  simp [next, h]

theorem head?_ahead (h : c.ahead = t :: ts) : c.ahead.head? = some t := by
  rw [h, List.head?_cons]

end Cursor

/-- `d` is `c` moved over some of the tokens ahead -/
def Cursor.Reaches (c d : Cursor) : Prop :=
  ∃ taken, c.ahead = taken ++ d.ahead ∧ d.index = c.index + taken.length ∧ d.depth = c.depth

namespace Cursor

variable {c d e : Cursor}

theorem Reaches.refl (c : Cursor) : c.Reaches c := ⟨[], rfl, rfl, rfl⟩

theorem Reaches.trans (h₁ : c.Reaches d) (h₂ : d.Reaches e) : c.Reaches e := by
  obtain ⟨s, hs, is, ds⟩ := h₁
  obtain ⟨t, ht, it, dt⟩ := h₂
  refine ⟨s ++ t, ?_, ?_, dt.trans ds⟩
  · rw [hs, ht, List.append_assoc]
  · rw [it, is, List.length_append, Nat.add_assoc]

theorem reaches_next (h : c.ahead ≠ []) : c.Reaches c.next := by
  obtain ⟨t, ts, hts⟩ := List.exists_cons_of_ne_nil h
  exact ⟨[t], by simp [next, hts], rfl, rfl⟩

theorem Reaches.suffix (h : c.Reaches d) : d.ahead <:+ c.ahead := by
  obtain ⟨s, hs, -, -⟩ := h
  exact ⟨s, hs.symm⟩

theorem Reaches.length_le (h : c.Reaches d) : d.ahead.length ≤ c.ahead.length :=
  h.suffix.length_le

/-- tokens that are left over were there before -/
theorem Reaches.ahead_ne_nil (h : c.Reaches d) (hd : d.ahead ≠ []) : c.ahead ≠ [] :=
  fun hc => hd (List.suffix_nil.1 (hc ▸ h.suffix))

theorem Reaches.depth_eq (h : c.Reaches d) : d.depth = c.depth := h.choose_spec.2.2

/-- the index goes on counting the tokens that are no longer ahead -/
theorem Reaches.ahead_eq_drop {tokens : List Token} (h : c.Reaches d) (hc : c.ahead = tokens.drop c.index) :
    d.ahead = tokens.drop d.index := by
  obtain ⟨taken, ha, hi, -⟩ := h
  rw [hi, ← List.drop_drop, ← hc, ha, List.drop_left]

/-- moves inside a construct are moves outside of it -/
theorem Reaches.above (h : c.below.Reaches d) : c.Reaches d.above := by
  obtain ⟨s, hs, hi, hd⟩ := h
  exact ⟨s, hs, hi, by rw [Cursor.above, hd, Cursor.below, Nat.add_sub_cancel]⟩

end Cursor

/-- the remark is about a stray token -/
def Remark.isStray : Remark → Bool
  | .stray _ _ => true
  | _ => false

namespace Parser

variable {α β : Type} {c d : Cursor}

/-- `p` succeeds at `c`: it yields `a` and leaves the cursor `d` -/
def Gives (p : Parser α) (c : Cursor) (a : α) (d : Cursor) : Prop :=
  (p c).result = .ok a ∧ (p c).cursor = d

/-! ## Chaining -/

theorem Gives.apply {a : α} (h : Gives p c a d) : p c = ⟨.ok a, d, (p c).remarks⟩ := by
  obtain ⟨ha, rfl⟩ := h
  rw [← ha]

@[simp] theorem gives_pure {a b : α} : Gives (pure a : Parser α) c b d ↔ a = b ∧ c = d := by
  simp [Gives]

@[simp] theorem gives_bind {p : Parser α} {f : α → Parser β} {b : β} :
    Gives (p >>= f) c b d ↔ ∃ a e, Gives p c a e ∧ Gives (f a) e b d := by
  unfold Gives
  rw [bind_apply]
  rcases p c with ⟨_ | a, e, rs⟩
  · simp
  · simp only [Except.ok.injEq]
    exact ⟨fun h => ⟨a, e, ⟨rfl, rfl⟩, h⟩, fun ⟨_, _, ⟨h₁, h₂⟩, h⟩ => h₁ ▸ h₂ ▸ h⟩

theorem remarks_bind {p : Parser α} {f : α → Parser β} {a : α} (h : Gives p c a d) :
    ((p >>= f) c).remarks = (p c).remarks ++ (f a d).remarks := by
  rw [bind_apply_ok h.apply]

/-- where a parser leads to, and then what follows it -/
theorem reaches_bind {b : Cursor} {p : Parser α} {f : α → Parser β} (h : b.Reaches (p c).cursor)
    (hf : ∀ a d, Gives p c a d → d.Reaches (f a d).cursor) : b.Reaches ((p >>= f) c).cursor := by
  rcases hp : p c with ⟨e | a, d, rs⟩ <;> rw [hp] at h
  · rw [bind_apply_error hp]
    exact h
  · rw [bind_apply_ok hp]
    exact h.trans (hf a d ⟨by rw [hp], by rw [hp]⟩)

/-- what follows a parser matters only where the parser leads to -/
theorem bind_apply_congr {p q : Parser α} {f g : α → Parser β} (h : p c = q c)
    (hf : ∀ a d, Gives p c a d → f a d = g a d) : (p >>= f) c = (q >>= g) c := by
  rcases hp : p c with ⟨e | a, d, rs⟩ <;> rw [hp] at h
  · rw [bind_apply_error hp, bind_apply_error h.symm]
  · rw [bind_apply_ok hp, bind_apply_ok h.symm, hf a d ⟨by rw [hp], by rw [hp]⟩]

@[simp] theorem gives_map {p : Parser α} {f : α → β} {b : β} :
    Gives (f <$> p) c b d ↔ ∃ a, Gives p c a d ∧ f a = b := by
  rw [← bind_pure_comp, gives_bind]
  constructor
  · rintro ⟨a, _, h, hb⟩
    obtain ⟨rfl, rfl⟩ := gives_pure.1 hb
    exact ⟨a, h, rfl⟩
  · rintro ⟨a, h, rfl⟩
    exact ⟨a, d, h, gives_pure.2 ⟨rfl, rfl⟩⟩

@[simp] theorem gives_fail {e : ParseError} {a : α} : ¬ Gives (fail e : Parser α) c a d := by
  simp [Gives, fail]

@[simp] theorem gives_remark {r : Remark} {u : Unit} : Gives (remark r) c u d ↔ c = d := by
  simp [Gives, remark]

/-! ## Single tokens -/

@[simp] theorem gives_place {e : Cursor} : Gives place c e d ↔ c = e ∧ c = d := by
  simp [Gives, place]

@[simp] theorem gives_peek {t : Option Token} : Gives peek c t d ↔ c.ahead.head? = t ∧ c = d := by
  simp [Gives, peek]

@[simp] theorem gives_advance {u : Unit} : Gives advance c u d ↔ c.next = d := by
  simp [Gives, advance]

theorem gives_place_bind {f : Cursor → Parser β} {b : β} : Gives (place >>= f) c b d ↔ Gives (f c) c b d := by
  simp [and_assoc]

theorem gives_peek_bind {f : Option Token → Parser β} {b : β} :
    Gives (peek >>= f) c b d ↔ Gives (f c.ahead.head?) c b d := by
  simp [and_assoc]

theorem gives_advance_bind {f : Unit → Parser β} {b : β} :
    Gives (advance >>= f) c b d ↔ Gives (f ()) c.next b d := by
  simp [Gives, bind_apply, advance]

@[simp] theorem gives_nextIs {k : Kind} {b : Bool} :
    Gives (nextIs k) c b d ↔ c.ahead.head?.any (·.kind = k) = b ∧ c = d := by
  simp [nextIs, and_assoc, and_comm]

theorem any_kind_eq_iff {k : Kind} {t : Token} (hk : k.token? = some t) (o : Option Token) :
    o.any (·.kind = k) = true ↔ o = some t := by
  cases o with
  | none => simp
  | some u => simp [Token.kind_eq_iff hk]

/-- a parser that depends on whether a certain token comes next -/
theorem gives_ifNext {k : Kind} {t : Token} (hk : k.token? = some t) {p q : Parser α} {a : α} :
    Gives (nextIs k >>= fun b => if b = true then p else q) c a d ↔
      c.ahead.head? = some t ∧ Gives p c a d ∨ c.ahead.head? ≠ some t ∧ Gives q c a d := by
  have hb : Gives (nextIs k >>= fun b => if b = true then p else q) c a d ↔
      Gives (if c.ahead.head?.any (·.kind = k) = true then p else q) c a d := by
    simp [and_assoc]
  rw [hb]
  by_cases hc : c.ahead.head? = some t
  · simp [hc, Token.kind_eq_iff hk]
  · rw [if_neg (mt (any_kind_eq_iff hk _).1 hc)]
    simp [hc]

theorem gives_require {k : Kind} {t : Token} (hk : k.token? = some t) {due : Expectation} {u : Unit} :
    Gives (require k due) c u d ↔ c.ahead.head? = some t ∧ c.next = d := by
  unfold require
  rw [gives_ifNext hk]
  simp

theorem gives_expect {k : Kind} {t : Token} (hk : k.token? = some t) {u : Unit} :
    Gives (expect k) c u d ↔ c.ahead.head? = some t ∧ c.next = d := by
  unfold expect
  rw [gives_peek_bind]
  cases hc : c.ahead.head? with
  | none => simp
  | some u => by_cases hu : u = t <;> simp [hu, Token.kind_eq_iff hk]

/-- at most one token is stepped over -/
theorem gives_skip {k : Kind} {t : Token} (hk : k.token? = some t) {u : Unit} :
    Gives (skip k) c u d ↔ (if c.ahead.head? = some t then c.next else c) = d := by
  unfold skip
  rw [gives_ifNext hk]
  split <;> simp_all

theorem gives_optionalText {o : Option String} :
    Gives optionalText c o d ↔
      (∃ s, c.ahead.head? = some (.text s) ∧ o = some s ∧ c.next = d) ∨
        (∀ s, c.ahead.head? ≠ some (.text s)) ∧ o = none ∧ c = d := by
  unfold optionalText
  rw [gives_peek_bind]
  split
  · rename_i s hs
    simp [hs, eq_comm, and_comm]
  · rename_i hs
    have hs' : ∀ s, c.ahead.head? ≠ some (.text s) := hs
    simp [hs', eq_comm]

theorem gives_requireText {due : Expectation} {s : String} :
    Gives (requireText due) c s d ↔ c.ahead.head? = some (.text s) ∧ c.next = d := by
  unfold requireText
  simp only [gives_bind, gives_optionalText]
  constructor
  · rintro ⟨o, e, ⟨t, ht, rfl, rfl⟩ | ⟨-, rfl, rfl⟩, h⟩
    · obtain ⟨rfl, rfl⟩ := gives_pure.1 h
      exact ⟨ht, rfl⟩
    · simp at h
  · rintro ⟨hs, rfl⟩
    exact ⟨some s, c.next, Or.inl ⟨s, hs, rfl, rfl⟩, by simp⟩

/-! ## Repetition -/

theorem advances_of_gives {p : Parser (Option α)}
    (h : ∀ c a d, Gives p c (some a) d → d.ahead.length < c.ahead.length) : Advances p :=
  fun c a ha => h c a _ ⟨ha, rfl⟩

/-- one round of a repetition, and the rounds behind it -/
theorem gives_many {p : Parser (Option α)} (hp : Advances p) {as : List α} :
    Gives (many p) c as d ↔
      (Gives p c none d ∧ as = []) ∨
        ∃ a bs e, Gives p c (some a) e ∧ Gives (many p) e bs d ∧ as = a :: bs := by
  conv => lhs; rw [many_eq hp]
  rw [gives_bind]
  constructor
  · rintro ⟨o, e, ho, h⟩
    cases o with
    | none =>
      obtain ⟨rfl, rfl⟩ := gives_pure.1 h
      exact Or.inl ⟨ho, rfl⟩
    | some a =>
      obtain ⟨bs, hbs, rfl⟩ := gives_map.1 h
      exact Or.inr ⟨a, bs, e, ho, hbs, rfl⟩
  · rintro (⟨h, rfl⟩ | ⟨a, bs, e, ha, hbs, rfl⟩)
    · exact ⟨none, d, h, gives_pure.2 ⟨rfl, rfl⟩⟩
    · exact ⟨some a, e, ha, gives_map.2 ⟨bs, hbs, rfl⟩⟩

theorem many_stop {p : Parser (Option α)} (hp : Advances p) (h : Gives p c none d) : Gives (many p) c [] d :=
  (gives_many hp).2 (Or.inl ⟨h, rfl⟩)

theorem many_more {p : Parser (Option α)} (hp : Advances p) {a : α} {as : List α} {e : Cursor}
    (h : Gives p c (some a) e) (hs : Gives (many p) e as d) : Gives (many p) c (a :: as) d :=
  (gives_many hp).2 (Or.inr ⟨a, as, e, h, hs, rfl⟩)

/-- the remarks of a repetition are those of its rounds -/
theorem remarks_many_stop {p : Parser (Option α)} (hp : Advances p) (h : Gives p c none d) :
    (many p c).remarks = (p c).remarks := by
  rw [many_eq hp, remarks_bind h]
  exact List.append_nil _

theorem remarks_many_more {p : Parser (Option α)} (hp : Advances p) {a : α} (h : Gives p c (some a) d) :
    (many p c).remarks = (p c).remarks ++ (many p d).remarks := by
  conv => lhs; rw [many_eq hp]
  rw [remarks_bind h]
  rfl

/-- what the remarks of a last round have, and a round passes on to those before it, the remarks of a repetition have,
whether or not it fails in the end -/
theorem remarks_many_induction {p : Parser (Option α)} (hp : Advances p) {I : Cursor → Prop}
    {M : Cursor → List Remark → Prop} (stop : ∀ c, I c → M c (p c).remarks)
    (more : ∀ c a d, I c → Gives p c (some a) d → I d ∧ ∀ rs, M d rs → M c ((p c).remarks ++ rs))
    (hc : I c) : M c (many p c).remarks := by
  induction hn : c.ahead.length using Nat.strongRecOn generalizing c with
  | ind n ih =>
    have hr := stop c hc
    rcases hpc : p c with ⟨e | _ | a, d, rs⟩
    · rw [hpc] at hr
      rw [many_eq hp, bind_apply_error hpc]
      exact hr
    · have h : Gives p c none d := ⟨by rw [hpc], by rw [hpc]⟩
      rw [remarks_many_stop hp h]
      exact hr
    · have h : Gives p c (some a) d := ⟨by rw [hpc], by rw [hpc]⟩
      have hlt := hp c a h.1
      rw [h.2, hn] at hlt
      obtain ⟨hd, hm⟩ := more c a d hc h
      rw [remarks_many_more hp h]
      exact hm _ (ih _ hlt hd rfl)

/-- what a round that declines has, and a round passes on to the rounds before it, every run of a repetition has -/
theorem many_induction {p : Parser (Option α)} (hp : Advances p) {M : Cursor → List α → Cursor → Prop}
    (stop : ∀ c d, Gives p c none d → M c [] d)
    (more : ∀ c a e bs d, Gives p c (some a) e → M e bs d → M c (a :: bs) d)
    {as : List α} (h : Gives (many p) c as d) : M c as d := by
  induction as generalizing c with
  | nil =>
    rcases (gives_many hp).1 h with ⟨h, -⟩ | ⟨_, _, _, _, _, h⟩
    · exact stop c d h
    · cases h
  | cons a bs ih =>
    rcases (gives_many hp).1 h with ⟨_, h⟩ | ⟨_, _, e, ha, hbs, h⟩
    · cases h
    · cases h
      exact more c a e bs d ha (ih hbs)

end Parser

/-! ## Constructs -/

open TextGrammar.Parser

section

variable {c d : Cursor} {inner : Inner} {ns : List Node}

theorem gives_weight :
    Gives weight c ns d ↔ c.ahead.head? = some (.mark .colon) ∧
      ((∃ x s, c.next.ahead.head? = some (.number x s) ∧ [.weight x] = ns ∧ c.next.next = d) ∨
        (∀ x s, c.next.ahead.head? ≠ some (.number x s)) ∧ [.text ":"] = ns ∧ c.next = d) := by
  unfold weight
  simp only [gives_bind (p := expect _), gives_expect (k := .mark .colon) rfl, gives_peek_bind, and_assoc,
    exists_const, exists_and_left, exists_eq_left']
  refine and_congr_right fun _ => ?_
  split
  · rename_i x s hs
    simp [hs, and_comm]
  · rename_i hs
    have hs' : ∀ x s, c.next.ahead.head? ≠ some (.number x s) := hs
    simp [hs', and_comm]

theorem gives_fragment_none :
    Gives (fragment inner) c none d ↔ startAt inner c.ahead = none ∧ c = d := by
  unfold fragment
  rw [gives_place_bind]
  cases startAt inner c.ahead <;> simp

theorem gives_fragment_some :
    Gives (fragment inner) c (some ns) d ↔ ∃ p, startAt inner c.ahead = some p ∧ Gives p c ns d := by
  unfold fragment
  rw [gives_place_bind]
  cases startAt inner c.ahead <;> simp

theorem gives_block :
    Gives (block inner) c ns d ↔ ∃ nss, Gives (many (fragment inner)) c nss d ∧ nss.flatten = ns := by
  simp [block]

theorem gives_listElement_none :
    Gives (listElement inner) c none d ↔ c.ahead.head? ≠ some (.mark .comma) ∧ c = d := by
  unfold listElement
  rw [gives_ifNext rfl, gives_advance_bind, gives_bind]
  constructor
  · rintro (⟨-, ns, e, -, h⟩ | ⟨hc, h⟩)
    · cases ns <;> simp at h
    · exact ⟨hc, (gives_pure.1 h).2⟩
  · rintro ⟨hc, rfl⟩
    exact Or.inr ⟨hc, by simp⟩

theorem gives_listElement_some :
    Gives (listElement inner) c (some ns) d ↔
      c.ahead.head? = some (.mark .comma) ∧ Gives (block inner) c.next ns d ∧ ns ≠ [] := by
  unfold listElement
  rw [gives_ifNext rfl, gives_advance_bind, gives_bind]
  constructor
  · rintro (⟨hc, ms, e, hb, h⟩ | ⟨-, h⟩)
    · cases ms <;> simp at h
      obtain ⟨rfl, rfl⟩ := h
      exact ⟨hc, hb, by simp⟩
    · simp at h
  · rintro ⟨hc, hb, hn⟩
    obtain ⟨n, ms, rfl⟩ := List.exists_cons_of_ne_nil hn
    exact Or.inl ⟨hc, _, d, hb, by simp⟩

theorem gives_blockList {bs : List (List Node)} :
    Gives (blockList inner) c bs d ↔
      ∃ b e es, Gives (block inner) c b e ∧ Gives (many (listElement inner)) e es d ∧ b :: es = bs := by
  simp [blockList]

theorem gives_params {name : String} {ps : List (List Node)} :
    Gives (params inner name) c ps d ↔
      c.ahead.head? = some (.mark .openRound) ∧
        (∃ bs e, Gives (blockList inner) c.next bs e ∧ e.ahead.head? = some (.mark .closeRound) ∧ e.next = d ∧
          paramsOf bs = ps) ∨
      c.ahead.head? ≠ some (.mark .openRound) ∧ ps = [] ∧ c = d := by
  unfold params
  rw [gives_ifNext rfl, gives_advance_bind]
  simp [gives_require (k := .mark .closeRound) rfl, and_assoc]

theorem gives_modifier_none {name : String} :
    Gives (modifier inner name) c none d ↔ c.ahead.head? ≠ some (.mark .dot) ∧ c = d := by
  unfold modifier
  rw [gives_ifNext rfl, gives_advance_bind]
  simp

theorem gives_modifier_some {name : String} {m : Modifier Node} :
    Gives (modifier inner name) c (some m) d ↔
      c.ahead.head? = some (.mark .dot) ∧ c.next.ahead.head? = some (.text m.name) ∧
        Gives (params inner m.name) c.next.next m.params d := by
  unfold modifier
  rw [gives_ifNext rfl, gives_advance_bind]
  obtain ⟨name, ps⟩ := m
  simp [gives_requireText, and_assoc]

theorem gives_headTag_none : Gives (headTag inner) c none d ↔ c.ahead.head? ≠ some (.mark .openSquare) ∧ c = d := by
  unfold headTag
  rw [gives_ifNext rfl]
  simp

theorem gives_headTag_some :
    Gives (headTag inner) c (some ns) d ↔
      c.ahead.head? = some (.mark .openSquare) ∧ Gives (inner .tag) c ns d := by
  unfold headTag
  rw [gives_ifNext rfl]
  simp

theorem gives_ruleReference :
    Gives (ruleReference inner) c ns d ↔ ∃ o e ms f, Gives optionalText c o e ∧
      Gives (many (modifier inner (o.getD ""))) e ms f ∧ f.ahead.head? = some (.mark .hash) ∧ f.next = d ∧
      [.rule (o.getD "") ms] = ns := by
  unfold ruleReference
  simp [gives_require (k := .mark .hash) rfl, and_assoc]

theorem gives_ruleBody :
    Gives (ruleBody inner) c ns d ↔
      c.ahead = [] ∧ [.text "#"] = ns ∧ c = d ∨
      c.ahead.head? = some (.mark .hash) ∧ [.text ""] = ns ∧ c.next = d ∨
      c.ahead ≠ [] ∧ c.ahead.head? ≠ some (.mark .hash) ∧ Gives (ruleReference inner) c ns d := by
  unfold ruleBody
  rw [gives_peek_bind]
  split
  · rename_i h
    simp [List.head?_eq_none_iff.1 h, and_comm]
  · rename_i h
    have hc : c.ahead ≠ [] := by rintro h'; simp [h'] at h
    simp [h, hc, and_comm]
  · rename_i t ht h
    have hc : c.ahead ≠ [] := by rintro h'; simp [h'] at h
    have ht' : t ≠ .mark .hash := ht
    simp [h, hc, ht']

theorem gives_rule :
    Gives (rule inner) c ns d ↔ c.ahead.head? = some (.mark .hash) ∧ ∃ tags e ms,
      Gives (many (headTag inner)) c.next tags e ∧ Gives (ruleBody inner) e ms d ∧ tags.flatten ++ ms = ns := by
  unfold rule
  simp [gives_expect (k := .mark .hash) rfl, and_assoc]

theorem gives_tagEntry :
    Gives (tagEntry inner) c ns d ↔ ∃ name v vs, c.ahead.head? = some (.text name) ∧
      c.next.ahead.head? = some (.mark .colon) ∧ Gives (blockList inner) c.next.next (v :: vs) d ∧ v ≠ [] ∧
      [.tag name (v :: vs)] = ns := by
  unfold tagEntry
  simp only [gives_bind (p := requireText _), gives_bind (p := require _ _), gives_requireText,
    gives_require (k := .mark .colon) rfl, and_assoc, exists_const, exists_and_left, exists_eq_left']
  refine exists_congr fun name => and_congr_right fun _ => and_congr_right fun _ => ?_
  rw [gives_bind]
  constructor
  · rintro ⟨vs, e, hb, h⟩
    obtain ⟨v, _, ws, _, _, rfl⟩ := gives_blockList.1 hb
    cases v <;> simp at h
    obtain ⟨rfl, rfl⟩ := h
    exact ⟨_, _, hb, by simp, rfl⟩
  · rintro ⟨v, vs, hb, hv, rfl⟩
    obtain ⟨n, ms, rfl⟩ := List.exists_cons_of_ne_nil hv
    exact ⟨_, d, hb, by simp⟩

theorem gives_tagItem_none :
    Gives (tagItem inner) c none d ↔ (∀ t, c.ahead.head? = some t → t = .mark .closeSquare) ∧ c = d := by
  unfold tagItem
  rw [gives_peek_bind]
  split <;> simp_all

theorem gives_tagItem_some :
    Gives (tagItem inner) c (some ns) d ↔
      c.ahead.head? = some (.mark .hash) ∧ Gives (inner .rule) c ns d ∨
      c.ahead.head? = some (.mark .openSquare) ∧ Gives (inner .tag) c ns d ∨
      Gives (tagEntry inner) c ns d := by
  unfold tagItem
  rw [gives_peek_bind]
  have entry : Gives (tagEntry inner) c ns d → ∃ s, c.ahead.head? = some (.text s) := fun h =>
    let ⟨s, _, _, hs, _⟩ := gives_tagEntry.1 h
    ⟨s, hs⟩
  -- only an entry starts with a text, so the three ways exclude each other
  split <;> rename_i h <;> simp only [gives_bind, gives_pure, h] <;> grind

theorem gives_tag :
    Gives (tag inner) c ns d ↔ c.ahead.head? = some (.mark .openSquare) ∧ ∃ items e,
      Gives (many (tagItem inner)) c.next items e ∧ e.ahead.head? = some (.mark .closeSquare) ∧ e.next = d ∧
      items.flatten = ns := by
  unfold tag
  simp [gives_expect (k := .mark .openSquare) rfl, gives_expect (k := .mark .closeSquare) rfl, and_assoc]

theorem gives_condition {r : Condition Node} :
    Gives (condition inner) c r d ↔ ∃ lhs e, Gives (block inner) c lhs e ∧
      (e.ahead.head?.bind (Connective.ofKind? ·.kind) = none ∧
          ⟨Node.dropFinalSpace lhs, .notEqualTo, emptyTextSide⟩ = r ∧ e = d ∨
        ∃ k f rhs, e.ahead.head?.bind (Connective.ofKind? ·.kind) = some k ∧ Gives (skip .space) e.next () f ∧
          Gives (block inner) f rhs d ∧ rhs ≠ [] ∧
          ⟨Node.dropFinalSpace lhs, k.relation rhs, Node.dropFinalSpace rhs⟩ = r) := by
  unfold condition
  rw [gives_bind]
  refine exists_congr fun lhs => exists_congr fun e => and_congr_right fun _ => ?_
  rw [gives_peek_bind]
  split
  · rename_i h
    simp [h]
  · rename_i k h'
    rw [gives_advance_bind, gives_bind]
    constructor
    · rintro ⟨_, f, hf, h⟩
      obtain ⟨rhs, g, hb, h⟩ := gives_bind.1 h
      cases rhs <;> simp at h
      obtain ⟨rfl, rfl⟩ := h
      exact Or.inr ⟨k, f, _, h', hf, hb, by simp, rfl⟩
    · rintro (⟨hn, -⟩ | ⟨k', f, rhs, hk, hf, hb, hr, rfl⟩)
      · rw [h'] at hn
        cases hn
      · rw [h'] at hk
        cases hk
        obtain ⟨n, ms, rfl⟩ := List.exists_cons_of_ne_nil hr
        exact ⟨_, f, hf, gives_bind.2 ⟨_, d, hb, by simp⟩⟩

theorem gives_filledBlock {k : Keyword} :
    Gives (filledBlock inner k) c ns d ↔
      c.ahead.head? = some .space ∧ Gives (block inner) c.next ns d ∧ ns ≠ [] := by
  unfold filledBlock
  simp only [gives_bind, gives_require (k := .space) rfl, and_assoc, exists_const, exists_and_left, exists_eq_left']
  refine and_congr_right fun _ => ?_
  constructor
  · rintro ⟨ms, e, hb, h⟩
    cases ms <;> simp at h
    obtain ⟨rfl, rfl⟩ := h
    exact ⟨hb, by simp⟩
  · rintro ⟨hb, hn⟩
    obtain ⟨n, ms, rfl⟩ := List.exists_cons_of_ne_nil hn
    exact ⟨_, d, hb, by simp⟩

theorem gives_controlHead {k : Keyword} {r : Condition Node} :
    Gives (controlHead inner k) c r d ↔ c.ahead.head? = some (.mark .openSquare) ∧
      c.next.ahead.head? = some (.keyword k) ∧ c.next.next.ahead.head? = some .space ∧
      Gives (condition inner) c.next.next.next r d := by
  unfold controlHead
  simp [gives_expect (k := .mark .openSquare) rfl, gives_expect (k := .keyword k) rfl,
    gives_require (k := .space) rfl, and_assoc]

theorem gives_ifBlock :
    Gives (ifBlock inner) c ns d ↔ ∃ r e t f, Gives (controlHead inner .ifWord) c r e ∧
      e.ahead.head? = some (.keyword .thenWord) ∧ Gives (filledBlock inner .thenWord) e.next t f ∧
      (f.ahead.head? = some (.keyword .elseWord) ∧ (∃ b g, Gives (filledBlock inner .elseWord) f.next b g ∧
          g.ahead.head? = some (.mark .closeSquare) ∧ g.next = d ∧
          [.ifBlock r (Node.dropFinalSpace t) (some b)] = ns) ∨
        f.ahead.head? = some (.mark .closeSquare) ∧ f.next = d ∧ [.ifBlock r t none] = ns) := by
  unfold ifBlock
  have hk (f : Cursor) (P : Prop) :
      (¬ f.ahead.head? = some (.keyword .elseWord) ∧ f.ahead.head? = some (.mark .closeSquare) ∧ P) ↔
        f.ahead.head? = some (.mark .closeSquare) ∧ P := by
    simp +contextual
  simp [gives_require (k := .keyword .thenWord) rfl, gives_ifNext (k := .keyword .elseWord) rfl,
    gives_expect (k := .mark .closeSquare) rfl, and_assoc, hk]

theorem gives_whileBlock :
    Gives (whileBlock inner) c ns d ↔ ∃ r e b f, Gives (controlHead inner .whileWord) c r e ∧
      e.ahead.head? = some (.keyword .doWord) ∧ Gives (filledBlock inner .doWord) e.next b f ∧
      f.ahead.head? = some (.mark .closeSquare) ∧ f.next = d ∧ [.whileBlock r b] = ns := by
  unfold whileBlock
  simp [gives_require (k := .keyword .doWord) rfl, gives_expect (k := .mark .closeSquare) rfl, and_assoc]

theorem gives_deeper {α : Type} {p : Parser α} {a : α} :
    Gives (deeper p) c a d ↔
      ∃ e, Gives p c.below a e ∧ e.above = d := by
  simp only [Gives, deeper, Cursor.below, Cursor.above]
  constructor
  · rintro ⟨h, rfl⟩
    exact ⟨_, ⟨h, rfl⟩, rfl⟩
  · rintro ⟨e, ⟨h, rfl⟩, rfl⟩
    exact ⟨h, rfl⟩

end

end TextGrammar
