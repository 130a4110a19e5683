/-
Lone hashes in the log.

A remark about a lone hash is made where a rule ends with the tokens. A construct that closes with a token of its own
does not end there, so where it succeeds no such remark is made in it (`quiet_construct`). What is left are rules at the
top level. `Told` says of a run which hashes it took and what it remarked on: they stand in pairs, or the last one is
alone, the tokens have come to their end and the last remark is about it. At the end nothing more can be remarked on, so
this goes together with itself (`Told.trans`) and holds of blocks, passages and documents.

The tree comes in through the derivation (`Document.spends`), which agrees with the log by parity.

Result:
- `hashes_of_build`: pairs of hashes against rules, lone hashes against the log.
-/
import Mathlib.Algebra.Ring.Parity
import Mathlib.Data.List.Count
import TextGrammar.Proofs.Closing
import TextGrammar.Proofs.Hashes

namespace TextGrammar

open Node TextGrammar.Parser

/-! ## Runs -/

/-- runs that remark on a lone hash only if they come to the end of the tokens -/
def loneAtEnd : RunRelation where
  At _ := True
  other := id
  keeps := keepsAhead_id
  Rel c r _ := c.Reaches r.cursor ∧ (r.cursor.ahead ≠ [] → Remark.loneHash ∉ r.remarks)
  at_next _ _ := trivial
  pure _ c := ⟨.refl c, fun _ => List.not_mem_nil⟩
  fail _ := ⟨.refl _, fun _ => List.not_mem_nil⟩
  remark c h := by
    refine ⟨.refl c, fun hn hm => hn ?_⟩
    obtain rfl := List.mem_singleton.1 hm
    exact h
  advance hc h := ⟨(Cursor.reaches_next hc).trans h.1, h.2⟩
  bind {α β p q f g c} _ hp hf := by
    refine ⟨reaches_bind hp.1 fun a d hd => (hf a d trivial hd).1, fun hn => ?_⟩
    rcases hpc : p c with ⟨err | a, d, rs⟩ <;> rw [hpc] at hp
    · rw [bind_apply_error hpc] at hn ⊢
      exact hp.2 hn
    · obtain ⟨hr, hq⟩ := hf a d trivial ⟨by rw [hpc], by rw [hpc]⟩
      rw [bind_apply_ok hpc] at hn ⊢
      exact List.not_mem_append (hp.2 (hr.ahead_ne_nil hn)) (hq hn)
  deeper h := ⟨h.1.above, h.2⟩

theorem loneAtEnd_construct (limit n : Nat) (k : Construct) :
    loneAtEnd.lockstep.InStep (construct limit n k) (construct limit n k) :=
  Lockstep.inStep_construct (L := loneAtEnd.lockstep) (fun _ => trivial)
    (fun c => ⟨.refl c, fun _ => List.not_mem_nil⟩) n k

/-- where `p` succeeds it begins with a token ahead, and it does not remark on a lone hash -/
def Quiet {α : Type} (p : Parser α) (c : Cursor) : Prop :=
  ∀ a d, Gives p c a d → c.ahead ≠ [] ∧ .loneHash ∉ (p c).remarks

theorem remarks_expect (k : Kind) (c : Cursor) : (expect k c).remarks = [] := by
  unfold expect
  rw [peek_bind_apply]
  cases c.ahead.head? with
  | none => rfl
  | some t => by_cases ht : t.kind = k <;> simp [ht, fail, advance]

theorem remarks_require (k : Kind) (due : Expectation) (c : Cursor) : (require k due c).remarks = [] := by
  unfold require nextIs
  simp only [bind_assoc, pure_bind]
  rw [peek_bind_apply]
  cases c.ahead.head?.any (·.kind = k) with
  | true => rfl
  | false => rfl

/-- constructs are quiet because of the token that they close with -/
def quietly : Closing loneAtEnd.lockstep where
  Has p c := Quiet p c
  everywhere _ := trivial
  bind {α β p f c} hp hf := by
    intro b e h
    obtain ⟨a, d, hg, hb⟩ := gives_bind.1 h
    obtain ⟨hn, hl⟩ := hf a d hg b e hb
    have hr : c.Reaches d := hg.2 ▸ hp.1
    rw [remarks_bind hg]
    exact ⟨hr.ahead_ne_nil hn, List.not_mem_append (hp.2 (hg.2 ▸ hn)) hl⟩
  bind_pure {α β p c} hp f := by
    intro b e h
    obtain ⟨a, d, hg, -⟩ := gives_bind.1 h
    obtain ⟨hn, hl⟩ := hp a d hg
    rw [remarks_bind hg]
    exact ⟨hn, List.not_mem_append hl List.not_mem_nil⟩
  expect k c := by
    intro a d h
    refine ⟨fun hn => ?_, by rw [remarks_expect]; exact List.not_mem_nil⟩
    rw [expect, gives_peek_bind, hn] at h
    exact gives_fail h
  require k due c := by
    intro a d h
    refine ⟨fun hn => ?_, by rw [remarks_require]; exact List.not_mem_nil⟩
    rw [require, nextIs, bind_assoc, gives_peek_bind, hn] at h
    obtain ⟨-, -, -, h⟩ := gives_bind.1 h
    exact gives_fail h

theorem quiet_construct {limit n : Nat} {k : Construct} (hk : k ≠ .rule) (c : Cursor) :
    Quiet (construct limit n k) c := by
  cases n with
  | zero => exact fun ns d h => absurd h gives_fail
  | succ n =>
    intro ns d h
    obtain ⟨e, he, -⟩ := gives_deeper.1 h
    exact quietly.body (construct_sound limit n) (loneAtEnd_construct limit n) c.below hk ns e he

/-- the hashes that a run takes in front of `rest`, by its remarks -/
inductive Accounts (ts rest : List Token) (rs : List Remark) : Prop where
  /-- they stand in pairs -/
  | paired (pairs : Nat) : hashes ts = hashes rest + 2 * pairs → .loneHash ∉ rs → Accounts ts rest rs
  /-- one is alone; the run goes on to the end, and its last remark is about that hash -/
  | lone (pairs : Nat) (before : List Remark) : rest = [] → hashes ts = 2 * pairs + 1 →
    rs = before ++ [.loneHash] → .loneHash ∉ before → Accounts ts rest rs

/-- a run over the tokens in front of `rest` that accounts for their hashes, and remarks on nothing at the end -/
structure Told (ts rest : List Token) (rs : List Remark) : Prop where
  suffix : rest <:+ ts
  silent : ts = [] → rs = []
  accounts : Accounts ts rest rs

section

variable {ts mid rest : List Token} {rs qs : List Remark} {t : Token}

theorem told_refl : Told ts ts [] :=
  ⟨List.suffix_refl ts, fun _ => rfl, .paired 0 rfl List.not_mem_nil⟩

theorem Told.trans (h₁ : Told ts mid rs) (h₂ : Told mid rest qs) : Told ts rest (rs ++ qs) where
  suffix := h₂.suffix.trans h₁.suffix
  silent hts := by
    have hmid : mid = [] := List.suffix_nil.1 (hts ▸ h₁.suffix)
    rw [h₁.silent hts, h₂.silent hmid, List.append_nil]
  accounts := by
    cases h₁.accounts with
    | paired p hp hrs =>
      cases h₂.accounts with
      | paired q hq hqs => exact .paired (p + q) (by omega) (List.not_mem_append hrs hqs)
      | lone q before hrest hq hqs hbefore =>
        have happend : rs ++ qs = rs ++ before ++ [.loneHash] := by rw [hqs, List.append_assoc]
        exact .lone (p + q) (rs ++ before) hrest (by omega) happend (List.not_mem_append hrs hbefore)
    | lone p before hmid hp hrs hbefore =>
      -- nothing is left to run over, and nothing to remark on
      have hrest : rest = [] := List.suffix_nil.1 (hmid ▸ h₂.suffix)
      exact .lone p before hrest hp (by rw [h₂.silent hmid, List.append_nil, hrs]) hbefore

/-- a token that is no hash, with a remark that is not about a lone hash or none -/
theorem told_token (ht : t ≠ .mark .hash) (hrs : .loneHash ∉ rs) : Told (t :: rest) rest rs :=
  ⟨List.suffix_cons t rest, fun h => (by cases h), .paired 0 (hashes_cons_of_ne ht rest) hrs⟩

/-- balanced tokens, some of which are taken, without a remark about a lone hash -/
theorem told_of_balance {plain : Prop} {ns : List Node} (hs : rest <:+ ts) (hlt : rest.length < ts.length)
    (h : Balance plain 0 ts rest ns) (hrs : .loneHash ∉ rs) : Told ts rest rs := by
  obtain ⟨p, hp, -⟩ := h
  refine ⟨hs, fun hts => ?_, .paired p hp hrs⟩
  rw [hts] at hlt
  exact absurd hlt (Nat.not_lt_zero _)

end

/-- the rounds of a repetition account for their hashes, and a round that declines does nothing -/
theorem told_many {α : Type} {p : Parser (Option α)} (hp : Advances p)
    (stop : ∀ c d, Gives p c none d → c = d ∧ (p c).remarks = [])
    (more : ∀ c a d, Gives p c (some a) d → Told c.ahead d.ahead (p c).remarks) {c d : Cursor} {as : List α}
    (h : Gives (many p) c as d) : Told c.ahead d.ahead (many p c).remarks := by
  refine many_induction hp (M := fun c _ d => Told c.ahead d.ahead (many p c).remarks) ?_ ?_ h
  · intro c d h
    obtain ⟨rfl, hr⟩ := stop c d h
    rw [remarks_many_stop hp h, hr]
    exact told_refl
  · intro c a e as d h ih
    rw [remarks_many_more hp h]
    exact (more c a e h).trans ih

/-! ### Rules -/

section

variable {limit n : Nat} {c d : Cursor} {ns : List Node}

theorem remarks_headTag (inner : Inner) (c : Cursor) : (headTag inner c).remarks =
    if c.ahead.head?.any (·.kind = .mark .openSquare) = true then (inner .tag c).remarks else [] := by
  rw [headTag, ifNext_apply]
  split
  · rw [bind_pure_comp, map_apply]
  · rfl

theorem loneHash_not_mem_heads {nss : List (List Node)} (h : Gives (many (headTag (construct limit n))) c nss d) :
    .loneHash ∉ (many (headTag (construct limit n)) c).remarks := by
  have adv := advances_headTag (construct_sound limit n)
  have single {c : Cursor} {ns : List Node} {e : Cursor}
      (h : Gives (construct limit n .tag) c ns e) : .loneHash ∉ (headTag (construct limit n) c).remarks := by
    rw [remarks_headTag]
    split
    · exact (quiet_construct (by simp) c ns e h).2
    · exact List.not_mem_nil
  refine many_induction adv (M := fun c _ _ => .loneHash ∉ (many (headTag (construct limit n)) c).remarks) ?_ ?_ h
  · intro c d h
    obtain ⟨hc, -⟩ := gives_headTag_none.1 h
    rw [remarks_many_stop adv h, remarks_headTag, if_neg (mt (any_kind_eq_iff rfl _).1 hc)]
    exact List.not_mem_nil
  · intro c ns e nss d h ih
    rw [remarks_many_more adv h]
    exact List.not_mem_append (single (gives_headTag_some.1 h).2) ih

/-- what follows the tags of a rule is a lone hash at the end of the tokens, and nowhere else -/
theorem remarks_ruleBody_nil (inner : Inner) (hc : c.ahead = []) : (ruleBody inner c).remarks = [.loneHash] := by
  rw [ruleBody, peek_bind_apply, hc]
  rfl

theorem loneHash_not_mem_ruleBody (hc : c.ahead ≠ []) (h : Gives (ruleBody (construct limit n)) c ns d) :
    .loneHash ∉ (ruleBody (construct limit n) c).remarks := by
  have hreference := quietly.ruleReference (construct_sound limit n) (loneAtEnd_construct limit n) c
  rw [ruleBody, gives_peek_bind] at h
  rw [ruleBody, peek_bind_apply]
  generalize ho : c.ahead.head? = o at h ⊢
  split at h
  · exact absurd (List.head?_eq_none_iff.1 ho) hc
  · exact List.not_mem_nil
  · exact (hreference ns d h).2

/-- a rule is two hashes, or a lone one that nothing but its tags stands behind -/
theorem told_rule (h : Gives (rule (construct limit n)) c ns d) :
    Told c.ahead d.ahead (rule (construct limit n) c).remarks := by
  have hderived := rule_sound (construct_sound limit n) h
  obtain ⟨hc, tags, e, ms, hheads, hbody, rfl⟩ := gives_rule.1 h
  have hopened : Gives (expect (.mark .hash)) c () c.next := (gives_expect rfl).2 ⟨hc, rfl⟩
  have hremarks : (rule (construct limit n) c).remarks =
      (many (headTag (construct limit n)) c.next).remarks ++ (ruleBody (construct limit n) e).remarks := by
    rw [rule, remarks_bind hopened, remarks_expect, remarks_bind hheads, bind_pure_comp, map_apply]
    rfl
  have hquiet := loneHash_not_mem_heads hheads
  have htags := ((heads_sound (construct_sound limit n) hheads).spends False.elim).hash
  have hend := (ruleBody_sound (construct_sound limit n) hbody).spends False.elim
  rw [hremarks]
  refine ⟨hderived.suffix, fun hn => ?_, ?_⟩
  · rw [hn] at hc
    cases hc
  rw [c.ahead_eq hc]
  rcases hend with ⟨he, hd, hend⟩ | ⟨he, hend⟩
  · obtain ⟨p, hp, -⟩ := htags
    rw [remarks_ruleBody_nil _ he]
    refine .lone p _ hd ?_ rfl hquiet
    rw [hp, he, hashes_hash, hashes_nil]
    omega
  · obtain ⟨p, hp, -⟩ := htags.append hend
    exact .paired p hp (List.not_mem_append hquiet (loneHash_not_mem_ruleBody he hbody))

/-! ### Blocks and documents -/

theorem told_construct {k : Construct} (h : Gives (construct limit n k) c ns d) :
    Told c.ahead d.ahead (construct limit n k c).remarks := by
  have hd := construct_sound limit n k c ns d h
  by_cases hk : k = .rule
  · subst hk
    cases n with
    | zero => exact absurd h gives_fail
    | succ n =>
      obtain ⟨e, he, rfl⟩ := gives_deeper.1 h
      exact told_rule (c := c.below) (d := e) he
  · have hb : Balance False 0 c.ahead d.ahead (nodesIn ns) := by
      have hs := hd.spends False.elim
      cases k with
      | rule => exact absurd rfl hk
      | _ => exact hs
    exact told_of_balance hd.suffix hd.construct_shortens hb (quiet_construct hk c ns d h).2

theorem told_weight (h : Gives weight c ns d) : Told c.ahead d.ahead (weight c).remarks := by
  obtain ⟨hc, hrest⟩ := gives_weight.1 h
  have hopened : Gives (expect (.mark .colon)) c () c.next := (gives_expect rfl).2 ⟨hc, rfl⟩
  have hremarks : .loneHash ∉ (weight c).remarks := by
    rw [weight, remarks_bind hopened, remarks_expect, peek_bind_apply]
    generalize c.next.ahead.head? = o
    split <;> simp [bind_apply, advance, remark]
  rw [c.ahead_eq hc]
  rcases hrest with ⟨x, s, hx, rfl, rfl⟩ | ⟨-, rfl, rfl⟩
  · rw [c.next.ahead_eq hx]
    exact (told_token (by simp) List.not_mem_nil).trans (told_token (by simp) hremarks)
  · exact told_token (by simp) hremarks

theorem told_fragment (h : Gives (fragment (construct limit n)) c (some ns) d) :
    Told c.ahead d.ahead (fragment (construct limit n) c).remarks := by
  obtain ⟨p, hs, hp⟩ := gives_fragment_some.1 h
  have hremarks : (fragment (construct limit n) c).remarks = (p c).remarks := by
    rw [fragment_apply, hs]
    exact (remarks_bind hp).trans (List.append_nil _)
  rw [hremarks]
  rcases startAt_cases hs with ⟨k, -, rfl⟩ | ⟨us, -, rfl⟩ | ⟨s, us, hc, rfl⟩ | ⟨x, s, us, hc, rfl⟩
  · exact told_construct hp
  · exact told_weight hp
  · rw [gives_advance_bind, gives_pure] at hp
    obtain ⟨-, rfl⟩ := hp
    rw [hc, c.next_ahead hc]
    exact told_token (by simp) List.not_mem_nil
  · rw [gives_advance_bind, gives_pure] at hp
    obtain ⟨-, rfl⟩ := hp
    rw [hc, c.next_ahead hc]
    exact told_token (by simp) List.not_mem_nil

theorem told_block (h : Gives (block (construct limit n)) c ns d) :
    Told c.ahead d.ahead (block (construct limit n) c).remarks := by
  obtain ⟨nss, hm, -⟩ := gives_block.1 h
  have hremarks : (block (construct limit n) c).remarks = (many (fragment (construct limit n)) c).remarks := by
    rw [block, bind_pure_comp, map_apply]
  rw [hremarks]
  refine told_many (advances_fragment (construct_sound limit n)) (fun c d h => ?_) (fun c ns d => told_fragment) hm
  obtain ⟨hs, rfl⟩ := gives_fragment_none.1 h
  exact ⟨rfl, by rw [fragment_apply, hs]⟩

/-- a block, and behind it the stray token that ends it -/
theorem told_passage (h : Gives (passage limit) c (some ns) d) :
    Told c.ahead d.ahead (passage limit c).remarks := by
  obtain ⟨hc, ms, e, hb, he⟩ := gives_passage_some.1 h
  have hblock := told_block hb
  rw [passage_apply hc, hb.apply]
  rcases he with ⟨he, rfl, rfl⟩ | ⟨t, he, rfl, rfl⟩
  · simpa only [he] using hblock
  · have hrest := e.ahead_eq he
    have hd := block_sound (construct_sound limit _) hb
    rw [hrest] at hd hblock
    have ht : t ≠ .mark .hash := ne_hash_of_starts (hd.starts_rest rfl)
    simp only [hrest]
    exact hblock.trans (told_token ht (by simp))

theorem remarks_document (limit : Nat) (c : Cursor) :
    (document limit c).remarks = (many (passage limit) c).remarks := by
  rw [document, bind_pure_comp, map_apply]

theorem told_document (h : Gives (document limit) c ns d) : Told c.ahead [] (document limit c).remarks := by
  have hend := document_end h
  obtain ⟨nss, hm, -⟩ : ∃ nss, Gives (many (passage limit)) c nss d ∧ nss.flatten = ns := by simpa [document] using h
  rw [remarks_document, ← hend]
  refine told_many (advances_passage limit) (fun c d h => ?_) (fun c ns d => told_passage) hm
  obtain ⟨hc, rfl⟩ := gives_passage_none.1 h
  exact ⟨rfl, by rw [passage_nil hc]⟩

end

/-! ## Hashes, rules and the log -/

/-- at the end of the tokens, remarks about lone hashes are the hashes that are left over from pairs -/
theorem Told.exists_pairs {ts : List Token} {rs : List Remark} (h : Told ts [] rs) :
    ∃ pairs, hashes ts = 2 * pairs + rs.count .loneHash ∧ rs.count .loneHash ≤ 1 := by
  cases h.accounts with
  | paired p hp hrs =>
    have hcount := List.count_eq_zero.2 hrs
    rw [hashes_nil] at hp
    exact ⟨p, by omega, by omega⟩
  | lone p before _ hp hrs hbefore =>
    have hcount : rs.count .loneHash = 1 := by
      rw [hrs, List.count_append, List.count_eq_zero.2 hbefore, List.count_singleton_self]
    exact ⟨p, by omega, by omega⟩

theorem count_debug (rs : List Remark) (r : Remark) : (rs.map Notice.debug).count (.debug r) = rs.count r :=
  List.count_map_of_injective rs _ (fun _ _ => Notice.debug.inj) r

/-- a remark about a lone hash is the last one -/
theorem Told.getLast?_eq {ts : List Token} {rs : List Remark} (h : Told ts [] rs) (hm : .loneHash ∈ rs) :
    rs.getLast? = some .loneHash := by
  cases h.accounts with
  | paired p hp hrs => exact absurd hm hrs
  | lone p before _ hp hrs hbefore => rw [hrs, List.getLast?_concat]

/-- what is told of a parse that succeeds -/
theorem told_build {limit : Nat} {ts : List Token} {ns : List Node} (h : (build limit ts).result = .ok ns) :
    ∃ rs, (build limit ts).log = rs.map .debug ∧ Told ts [] rs := by
  have hd : Gives (document limit) (.start ts) ns (document limit (.start ts)).cursor := ⟨h, rfl⟩
  refine ⟨(document limit (.start ts)).remarks, ?_, told_document hd⟩
  rw [build, Report.ofRun, hd.1, List.append_nil]

/-- **Hash by hash.** Leave out of the hashes of a token list that parses those that the log calls lone. The others
stand in pairs, and the tree has no more rules than there are pairs. If moreover no bracket is a control bracket, and no
text or number is written without any character, then each pair is a rule or an empty text, and each rule and each empty
text of the tree is a pair. -/
theorem hashes_of_build {limit : Nat} {ts : List Token} {ns : List Node} (h : (build limit ts).result = .ok ns) :
    (build limit ts).log.count (.debug .loneHash) ≤ hashes ts ∧
      Even (hashes ts - (build limit ts).log.count (.debug .loneHash)) ∧
      2 * ruleRefsIn ns ≤ hashes ts - (build limit ts).log.count (.debug .loneHash) ∧
      (PlainTokens ts → hashes ts - (build limit ts).log.count (.debug .loneHash) =
        2 * (ruleRefsIn ns + (nodesIn ns).countP isEmptyText)) := by
  obtain ⟨rs, hlog, htold⟩ := told_build h
  have hcount : (build limit ts).log.count (.debug .loneHash) = rs.count .loneHash := by rw [hlog, count_debug]
  obtain ⟨pairs, hpairs, hle⟩ := htold.exists_pairs
  obtain ⟨lone, hlone, pairs', hpairs', hrules, hexact⟩ :
      ∃ lone ≤ 1, Balance (PlainTokens ts) lone ts [] (nodesIn ns) := by
    rcases (build_ok_iff.1 h).spends id with hb | ⟨-, hb⟩
    · exact ⟨0, Nat.zero_le 1, hb⟩
    · exact ⟨1, Nat.le_refl 1, hb⟩
  rw [hashes_nil, Nat.zero_add] at hpairs'
  -- the derivation and the log agree on whether there is a lone hash, because they agree on the parity
  obtain rfl : pairs = pairs' := by omega
  rw [hcount, ruleRefsIn_eq, hpairs, Nat.add_sub_cancel]
  exact ⟨Nat.le_add_left _ _, even_two_mul pairs, Nat.mul_le_mul_left 2 hrules, fun hp => by rw [hexact hp]⟩

/-- a rule around an empty text, and a lone hash behind both -/
theorem hashes_of_build_lone :
    ∃ ts ns, (build 2 ts).result = .ok ns ∧ PlainTokens ts ∧ hashes ts = 5 ∧
      (build 2 ts).log.count (.debug .loneHash) = 1 ∧ ruleRefsIn ns + (nodesIn ns).countP isEmptyText = 2 := by
  obtain ⟨ts, ns, hts, hbuild⟩ : ∃ ts ns, ts = [.mark .hash, .text "a", .mark .dot, .text "b", .mark .openRound,
      .mark .hash, .mark .hash, .mark .closeRound, .mark .hash, .mark .hash] ∧
      build 2 ts = ⟨.ok ns, [.debug .loneHash]⟩ :=
    ⟨_, [.rule "a" [⟨"b", [[.text ""]]⟩], .text "#"], rfl, by rfl⟩
  have h : (build 2 ts).result = .ok ns := by rw [hbuild]
  have hplain : PlainTokens ts :=
    ⟨by rintro k (rfl | rfl) <;> simp [hts], by simp [hts, Token.kind, Token.rawText]⟩
  have hhashes : hashes ts = 5 := by
    rw [hts]
    decide
  have hlone : (build 2 ts).log.count (.debug .loneHash) = 1 := by
    rw [hbuild]
    rfl
  obtain ⟨-, -, -, hexact⟩ := hashes_of_build h
  have := hexact hplain
  rw [hhashes, hlone] at this
  exact ⟨ts, ns, h, hplain, hhashes, hlone, by omega⟩

end TextGrammar
