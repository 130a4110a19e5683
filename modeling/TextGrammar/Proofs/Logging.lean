/-
What settings and a log change about a parse.

Under settings that can be read, the outcome of a parse is that of its limit. A log only hears of it. It is told what a
`Callback` makes of it: that is called entry by entry, and without `debug` it is called through `Callback.quiet`, which
passes over the entries for debugging.

- `eq_of_checkLimit` and `exists_checkLimit_of_maxDepth`: the settings give no limit that the check of limits would
  refuse.
- `hear_quiet`: a callback that passes over entries hears the log without them.
- `filter_log_ofRun`: without the entries for debugging, the error is left of a log, if there is one.

Result:
- `settings_keep_outcome`: with a log or without, and whatever `debug` is, the outcome is that of the limit.
-/
import TextGrammar.Proofs.Limit
import TextGrammar.Settings

namespace TextGrammar

/-! ## Limits -/

/-- a limit that is accepted stays as it is -/
theorem eq_of_checkLimit {n : Int} {limit : Nat} (h : checkLimit n = .ok limit) : n = limit := by
  unfold checkLimit at h
  split at h
  · cases h
  · cases h
    omega

/-- a limit in the settings is one that the check accepts -/
theorem Settings.exists_checkLimit_of_maxDepth {s : Settings} {limit : Nat} (h : s.maxDepth = .ok limit) :
    ∃ n, checkLimit n = .ok limit := by
  unfold Settings.maxDepth at h
  cases htext : s.text .maxDepth with
  | error e => simp [htext, bind, Except.bind] at h
  | ok text? =>
    rw [htext] at h
    cases text? with
    | none =>
      cases h
      exact ⟨defaultLimit, rfl⟩
    | some text =>
      simp only [bind, Except.bind] at h
      split at h
      · cases h
      · rename_i n hn
        split at h
        · cases h
        · rename_i hpos
          obtain rfl : n.toNat = limit := Except.ok.inj h
          exact ⟨n, by rw [checkLimit, if_neg hpos]⟩

/-- the check of limits lets a limit in the settings pass -/
theorem Settings.buildWithin_maxDepth {s : Settings} {limit : Nat} (h : s.maxDepth = .ok limit) (ts : List Token) :
    buildWithin limit ts = .ok (build limit ts) := by
  obtain ⟨n, hn⟩ := Settings.exists_checkLimit_of_maxDepth h
  obtain rfl := eq_of_checkLimit hn
  rw [buildWithin, hn]
  rfl

/-! ## Entries of a log -/

theorem Notice.isDebug_eq (n : Notice) : n.isDebug = decide (n.level = "DEBUG") := by
  cases n <;> rfl

/-- without the entries for debugging, the error is left of the log of a run, if it has one -/
theorem filter_log_ofRun (r : Run (List Node)) :
    ((Report.ofRun r).log.filter fun n => n.level ≠ "DEBUG") =
      match (Report.ofRun r).result with
      | .ok _ => []
      | .error e => [.error e] := by
  have remarks : ((r.remarks.map Notice.debug).filter fun n => n.level ≠ "DEBUG") = [] := by
    rw [List.filter_eq_nil_iff]
    exact List.forall_mem_map.2 fun _ _ => by simp [Notice.level]
  rw [Report.ofRun, List.filter_append, remarks, List.nil_append]
  cases r.result <;> rfl

/-! ## Callbacks -/

/-- a callback: what it makes of the level and the wording of an entry, given what it has made of those before -/
def Callback (σ : Type) : Type := σ → String → String → σ

namespace Callback

variable {σ : Type}

/-- what a callback has made of a log -/
def hear (log : Callback σ) (st : σ) (entries : List Notice) : σ :=
  entries.foldl (fun st n => log st n.level n.message) st

/-- the callback that passes over entries for debugging -/
def quiet (log : Callback σ) : Callback σ := fun st level message =>
  if level = "DEBUG" then st else log st level message

/-- a callback that passes over entries hears the log without them -/
theorem hear_quiet (log : Callback σ) (st : σ) (entries : List Notice) :
    log.quiet.hear st entries = log.hear st (entries.filter fun n => n.level ≠ "DEBUG") := by
  rw [hear, hear, List.foldl_filter]
  congr 1
  funext st n
  by_cases hn : n.level = "DEBUG" <;> simp [quiet, hn]

end Callback

/-! ## Parses under settings -/

section

variable {s : Settings} {limit : Nat} {debug : Bool} (hlimit : s.maxDepth = .ok limit)
include hlimit

theorem Settings.parse_silent (source : String) :
    s.parse false source = .ok ⟨(build limit (Source.tokens source)).result, []⟩ := by
  rw [Settings.parse, hlimit]
  rfl

theorem Settings.parse_logging (hdebug : s.debug = .ok debug) (source : String) :
    s.parse true source = .ok ⟨(build limit (Source.tokens source)).result,
      if debug then (build limit (Source.tokens source)).log
      else (build limit (Source.tokens source)).log.filter fun n => n.level ≠ "DEBUG"⟩ := by
  rw [Settings.parse, hlimit]
  simp only [bind, Except.bind, if_true, hdebug]
  cases debug with
  | true => rfl
  | false => simp [Notice.isDebug_eq, pure, Except.pure]

end

/-- **Settings and a log leave the outcome as it is.** Take any settings whose limit and whose `debug` can be read, and
any source. The limit passes the check that the parser makes of it, so there is a report on the tokens of the source
under that limit. A parse under the settings has the result of this report, with a log or without. A log has all entries
of the report if `debug` is set, and those at another level than `DEBUG` otherwise, in order; that leaves the error of a
parse that fails. It is what a callback hears that is called for every entry, but not for those at the level `DEBUG`
unless `debug` is set. -/
theorem settings_keep_outcome {s : Settings} {limit : Nat} {debug : Bool} (hlimit : s.maxDepth = .ok limit)
    (hdebug : s.debug = .ok debug) (source : String) :
    ∃ told, buildWithin limit (Source.tokens source) = .ok told ∧
      s.parse false source = .ok ⟨told.result, []⟩ ∧
      (∃ log, s.parse true source = .ok ⟨told.result, log⟩ ∧
        log = (if debug then told.log else told.log.filter fun n => n.level ≠ "DEBUG") ∧
        ∀ (σ : Type) (callback : Callback σ) st,
          callback.hear st log = (if debug then callback else callback.quiet).hear st told.log) ∧
      (told.log.filter fun n => n.level ≠ "DEBUG") =
        match told.result with
        | .ok _ => []
        | .error e => [.error e] := by
  refine ⟨build limit (Source.tokens source), Settings.buildWithin_maxDepth hlimit _,
    Settings.parse_silent hlimit source, ?_, filter_log_ofRun _⟩
  refine ⟨_, Settings.parse_logging hlimit hdebug source, rfl, fun σ callback st => ?_⟩
  cases debug with
  | true => rfl
  | false => exact (callback.hear_quiet st _).symm

/-- a source that is remarked on and then fails, under a file that sets the limit only -/
theorem settings_keep_outcome_tooDeep :
    ∃ s, Settings.read "[PARSER]\nmax_depth = 1\n" = .ok s ∧ s.maxDepth = .ok 1 ∧ s.debug = .ok false ∧
      (build 1 (Source.tokens ")[a:#b#]")).log = [.debug (.stray (.mark .closeRound) 0), .error (.tooDeep 1)] ∧
      s.parse false ")[a:#b#]" = .ok ⟨.error (.tooDeep 1), []⟩ ∧
      s.parse true ")[a:#b#]" = .ok ⟨.error (.tooDeep 1), [.error (.tooDeep 1)]⟩ := by
  let s : Settings := ⟨["PARSER"], [⟨"PARSER", "max_depth", "1"⟩]⟩
  have hread : Settings.read "[PARSER]\nmax_depth = 1\n" = .ok s := by rfl
  have hlimit : s.maxDepth = .ok 1 := by rfl
  have hdebug : s.debug = .ok false := by rfl
  have hbuild : build 1 (Source.tokens ")[a:#b#]") =
      ⟨.error (.tooDeep 1), [.debug (.stray (.mark .closeRound) 0), .error (.tooDeep 1)]⟩ := by rfl
  obtain ⟨told, htold, hsilent, ⟨log, hlogging, hlog, -⟩, -⟩ :=
    settings_keep_outcome hlimit hdebug ")[a:#b#]"
  obtain rfl : build 1 (Source.tokens ")[a:#b#]") = told := Except.ok.inj htold
  rw [hbuild] at hsilent hlogging hlog
  obtain rfl : log = [.error (.tooDeep 1)] := hlog
  exact ⟨s, hread, hlimit, hdebug, by rw [hbuild], hsilent, hlogging⟩

end TextGrammar
