import DepositSync.Proofs.RunLock
import Mathlib.Logic.Function.Basic

/-!
# DepositSync.Proofs.SerialRuns

All jobs of a service at once. The scheduler and operators start them at any time, in any mode, and
the runs that have something to do go on in any order (`JobSet.after`). The two jobs that keep a
table have a lock each; they share the world, the token included, but neither touches the table of
the other.

So the runs of one job go on one after the other, whatever the other job does in the meantime
(`runs_never_interleave`). What the service in memory does with runs that are started together is
one of these orders (`refreshTogether_eq_after`).
-/

namespace DepositSync

variable {ν ρ σ : Type}

/-! ### The two jobs -/

namespace Web.Target

/-- What the vendor reports to the job. -/
abbrev Report : Target → Type
  | portfolio => NetWorth
  | pendingJourney => Journey

/-- The rows that the job keeps. -/
abbrev Row : Target → Type
  | portfolio => PortfolioRecord
  | pendingJourney => PendingJourneyRecord

instance : (target : Target) → Entity target.Report target.Row
  | portfolio => inferInstance
  | pendingJourney => inferInstance

end Web.Target

/-- The settings of a job. -/
def JobsSettings.reconciliation (settings : JobsSettings) : Web.Target → ReconciliationSettings
  | .portfolio => settings.portfolio
  | .pendingJourney => settings.pendingJourney

/-- The world that the jobs share. What one of them calls leaves the table of the other alone, and
what is called about the token leaves both alone. -/
structure Surroundings (σ : Type) where
  /-- Answers the calls of a job, and keeps its table. -/
  backend : (target : Web.Target) → Backend target.Report target.Row σ
  /-- Answers a call about the token. -/
  answerToken : (c : TokenCall) → σ → c.Answer × σ
  frame : ∀ (target other : Web.Target), target ≠ other → ∀ (c : Call other.Report other.Row)
    (s : σ), (backend target).table ((backend other).answer c s).2 = (backend target).table s
  token_frame : ∀ (target : Web.Target) (c : TokenCall) (s : σ),
    (backend target).table (answerToken c s).2 = (backend target).table s

namespace Rehearsal

/-- The service in memory is a backend of the runs of either job. -/
def backend : (target : Web.Target) → Backend target.Report target.Row Rehearsal
  | .portfolio => portfolioBackend
  | .pendingJourney => pendingJourneyBackend

/-- The service in memory is such a world. -/
def surroundings : Surroundings Rehearsal where
  backend := backend
  answerToken := answerToken
  frame
    | .portfolio, .pendingJourney, _, _, _ => rfl
    | .pendingJourney, .portfolio, _, _, _ => rfl
    | .portfolio, .portfolio, h, _, _ => absurd rfl h
    | .pendingJourney, .pendingJourney, h, _, _ => absurd rfl h
  token_frame
    | .portfolio, .validate, _ => rfl
    | .pendingJourney, .validate, _ => rfl

end Rehearsal

/-- What can happen. -/
inductive Move where
  /-- A run of a job is started. -/
  | start (target : Web.Target) (trigger : Trigger) (mode : RefreshMode)
  /-- One of the runs of a job goes on. -/
  | goOn (target : Web.Target) (i : Nat)
  /-- The token is renewed. -/
  | renewToken
  deriving DecidableEq, Repr

/-- The run of a job that is started, with the settings of the job. -/
def Move.launch? (settings : ReconciliationSettings) (target : Web.Target) : Move → Option Launch
  | start other trigger mode => if other = target then some ⟨settings, trigger, mode⟩ else none
  | goOn _ _ => none
  | renewToken => none

namespace Move

variable {settings : ReconciliationSettings} {target : Web.Target} {m : Move}

theorem launch?_start (settings : ReconciliationSettings) (target : Web.Target)
    (trigger : Trigger) (mode : RefreshMode) :
    (start target trigger mode).launch? settings target = some ⟨settings, trigger, mode⟩ :=
  if_pos rfl

theorem launch?_start_of_ne {other : Web.Target} (h : target ≠ other) (trigger : Trigger)
    (mode : RefreshMode) : (start other trigger mode).launch? settings target = none :=
  if_neg h.symm

theorem launches_of_some {l : Launch} (h : m.launch? settings target = some l)
    (moves : List Move) :
    (moves ++ [m]).filterMap (launch? settings target) =
      moves.filterMap (launch? settings target) ++ [l] := by
  rw [List.filterMap_append, List.filterMap_cons_some h, List.filterMap_nil]

theorem launches_of_none (h : m.launch? settings target = none) (moves : List Move) :
    (moves ++ [m]).filterMap (launch? settings target) =
      moves.filterMap (launch? settings target) := by
  rw [List.filterMap_append, List.filterMap_cons_none h, List.filterMap_nil, List.append_nil]

end Move

/-- The jobs of a service: the world that they share, and the lock of each with its runs. -/
structure JobSet (σ : Type) where
  world : σ
  lock : (target : Web.Target) → RunLock target.Report target.Row σ

namespace JobSet

/-- No run was started. -/
def initial (s : σ) : JobSet σ := ⟨s, fun _ => .initial⟩

variable (env : Surroundings σ) (settings : JobsSettings)

/-- Something happens. -/
def move (o : JobSet σ) : Move → JobSet σ
  | .start target trigger mode =>
    let r := (o.lock target).enter ⟨settings.reconciliation target, trigger, mode⟩
    { o with lock := Function.update o.lock target r }
  | .goOn target i =>
    let (r, world) := (o.lock target).proceed (env.backend target).answer i o.world
    { o with lock := Function.update o.lock target r, world := world }
  | .renewToken =>
    { o with world := ((renewToken settings.tokenRenewal).run env.answerToken o.world).2 }

/-- What there is after all this has happened. -/
def after (o : JobSet σ) (moves : List Move) : JobSet σ :=
  moves.foldl (fun o m => o.move env settings m) o

theorem lock_start (o : JobSet σ) (target : Web.Target) (trigger : Trigger) (mode : RefreshMode) :
    (o.move env settings (.start target trigger mode)).lock target =
      (o.lock target).enter ⟨settings.reconciliation target, trigger, mode⟩ :=
  Function.update_self ..

theorem lock_goOn (o : JobSet σ) (target : Web.Target) (i : Nat) :
    (o.move env settings (.goOn target i)).lock target =
      ((o.lock target).proceed (env.backend target).answer i o.world).1 :=
  Function.update_self ..

theorem world_goOn (o : JobSet σ) (target : Web.Target) (i : Nat) :
    (o.move env settings (.goOn target i)).world =
      ((o.lock target).proceed (env.backend target).answer i o.world).2 := rfl

/-- What happens to one job leaves the lock of the other as it is. -/
theorem lock_start_of_ne (o : JobSet σ) {target other : Web.Target} (h : target ≠ other)
    (trigger : Trigger) (mode : RefreshMode) :
    (o.move env settings (.start other trigger mode)).lock target = o.lock target :=
  Function.update_of_ne h ..

theorem lock_goOn_of_ne (o : JobSet σ) {target other : Web.Target} (h : target ≠ other)
    (i : Nat) : (o.move env settings (.goOn other i)).lock target = o.lock target :=
  Function.update_of_ne h ..

end JobSet

/-! ### What is so at any time -/

/-- What is so for one of the jobs at any time. -/
structure RunLock.Sound [Entity ν ρ] (env : Backend ν ρ σ) (launches : List Launch) (t : Table ρ)
    (r : RunLock ν ρ σ) (s : σ) : Prop where
  inv : r.Inv
  faithful : r.Faithful env t s
  started : r.invocations.map Invocation.launch = launches

namespace RunLock.Sound

variable [Entity ν ρ] {env : Backend ν ρ σ} {launches : List Launch} {t : Table ρ}
  {r : RunLock ν ρ σ} {s : σ}

theorem initial (env : Backend ν ρ σ) (s : σ) :
    (initial : RunLock ν ρ σ).Sound env [] (env.table s) s where
  inv := .initial
  faithful := ⟨rfl, fun before later i _ _ _ _ h => by simp [RunLock.initial] at h⟩
  started := rfl

theorem enter (h : r.Sound env launches t s) (l : Launch) :
    (r.enter l).Sound env (launches ++ [l]) t s where
  inv := h.inv.enter l
  faithful := ⟨h.faithful.table_eq, h.faithful.listed⟩
  started := by
    rw [RunLock.enter, List.map_append, h.started]
    rfl

theorem proceed (h : r.Sound env launches t s) (i : Nat) :
    (r.proceed env.answer i s).1.Sound env launches t (r.proceed env.answer i s).2 where
  inv := h.inv.proceed env.answer i s
  faithful := h.faithful.proceed i
  started := (launches_proceed r i s).trans h.started

/-- What leaves the table alone may happen at any time. -/
theorem elsewhere (h : r.Sound env launches t s) {s' : σ} (hs' : env.table s' = env.table s) :
    r.Sound env launches t s' where
  inv := h.inv
  faithful := ⟨hs'.trans h.faithful.table_eq, h.faithful.listed⟩
  started := h.started

end RunLock.Sound

/-- A run of one job that goes on leaves alone what the calls of this job leave alone. -/
theorem RunLock.frame_proceed {τ : Type} {handle : (c : Call ν ρ) → σ → c.Answer × σ} {f : σ → τ}
    (h : ∀ c s, f (handle c s).2 = f s) (r : RunLock ν ρ σ) (i : Nat) (s : σ) :
    f (r.proceed handle i s).2 = f s := by
  fun_cases RunLock.proceed handle i r s with
  | case4 l c next hi answer after hanswer =>
      rw [← h c s, hanswer]
  | _ => rfl

namespace JobSet

/-- What is so at any time, for each of the jobs. -/
def Sound (env : Surroundings σ) (settings : JobsSettings) (moves : List Move) (s : σ)
    (o : JobSet σ) : Prop :=
  ∀ target : Web.Target, (o.lock target).Sound (env.backend target)
    (moves.filterMap (Move.launch? (settings.reconciliation target) target))
    ((env.backend target).table s) o.world

variable {env : Surroundings σ} {settings : JobsSettings} {moves : List Move} {s : σ} {o : JobSet σ}

theorem Sound.initial (env : Surroundings σ) (settings : JobsSettings) (s : σ) :
    (initial s).Sound env settings [] s :=
  fun target => .initial (env.backend target) s

theorem frame_renewToken (env : Surroundings σ) (settings : TokenRenewalSettings)
    (target : Web.Target) (s : σ) :
    (env.backend target).table ((renewToken settings).run env.answerToken s).2 =
      (env.backend target).table s :=
  (Program.trace_invariant env.answerToken
    (fun s' => (env.backend target).table s' = (env.backend target).table s) _ s rfl
    fun e _ s' h => (env.token_frame target e.call s').trans h).2

/-- Whatever happens, it stays that way. -/
theorem Sound.move (h : o.Sound env settings moves s) (m : Move) :
    (o.move env settings m).Sound env settings (moves ++ [m]) s := by
  intro target
  have hnow := h target
  cases m with
  | start other trigger mode =>
      by_cases hother : target = other
      · subst hother
        rw [lock_start, Move.launches_of_some (Move.launch?_start ..)]
        exact hnow.enter _
      · rw [lock_start_of_ne env settings o hother,
          Move.launches_of_none (Move.launch?_start_of_ne hother ..)]
        exact hnow
  | goOn other i =>
      rw [Move.launches_of_none rfl]
      by_cases hother : target = other
      · subst hother
        rw [lock_goOn]
        exact hnow.proceed i
      · -- to this job it is no more than something that leaves its table alone
        rw [lock_goOn_of_ne env settings o hother]
        exact hnow.elsewhere (RunLock.frame_proceed (env.frame target other hother) _ i _)
  | renewToken =>
      rw [Move.launches_of_none rfl]
      exact hnow.elsewhere (frame_renewToken env settings.tokenRenewal target o.world)

theorem Sound.after (h : o.Sound env settings moves s) (more : List Move) :
    (o.after env settings more).Sound env settings (moves ++ more) s := by
  induction more generalizing o moves with
  | nil =>
      rw [List.append_nil]
      exact h
  | cons m rest ih =>
      rw [List.append_cons]
      exact ih (h.move m)

end JobSet

/-! ### Either job can be next -/

namespace RunLock

/-- Is a call of this run on its way? -/
def isCalling (r : RunLock ν ρ σ) (i : Nat) : Bool :=
  match r.invocations[i]? with
  | some ⟨_, .calling _ _⟩ => true
  | _ => false

variable (handle : (c : Call ν ρ) → σ → c.Answer × σ)

/-- How many calls are answered when the runs named go on, in this order. -/
def answers : List Nat → RunLock ν ρ σ × σ → Nat
  | [], _ => 0
  | i :: rest, (r, s) => (if r.isCalling i then 1 else 0) + answers rest (r.proceed handle i s)

variable {r : RunLock ν ρ σ} {i : Nat} {l : Launch} {c : Call ν ρ} {next : c.Answer → RunProgram ν ρ}

theorem answers_of_calling (hi : r.invocations[i]? = some ⟨l, .calling c next⟩) (s : σ) :
    answers handle [i] (r, s) = 1 := by
  simp only [answers, isCalling, hi, if_true]

theorem answers_of_call (hi : r.invocations[i]? = some ⟨l, .running (.call c next)⟩) (s : σ) :
    answers handle [i, i] (r, s) = 1 := by
  have hsent := answers_of_calling handle (getElem?_move (l := l) hi (.calling c next)) s
  rw [answers, proceed_of_call hi, hsent]
  simp only [isCalling, hi, Bool.false_eq_true, if_false]

theorem answers_of_waiting (hi : r.invocations[i]? = some ⟨l, .waiting (.call c next)⟩)
    (hfree : r.holder = none) (s : σ) : answers handle [i, i, i] (r, s) = 1 := by
  have htaken := answers_of_call handle (r := r.take i l (.call c next))
    (getElem?_move (l := l) hi (.running (.call c next))) s
  rw [answers, proceed_of_waiting hi hfree, htaken]
  simp only [isCalling, hi, Bool.false_eq_true, if_false]

/-- Whatever is under way, if one more run is started that has something to do, a call can be the
next to be answered. -/
theorem Inv.exists_answers [Entity ν ρ] (h : r.Inv)
    (hi : r.invocations[i]? = some ⟨l, .waiting (.call c next)⟩) (s : σ) :
    ∃ order, answers handle order (r, s) = 1 := by
  cases hholder : r.holder with
  | none => exact ⟨_, answers_of_waiting handle hi hholder s⟩
  | some k =>
      obtain ⟨l', stage, hk⟩ := h.exists_invocation (h.mem_turns hholder)
      have hholds : stage.holdsLock = true := (h.lawful k _ hk).holds_iff.mpr hholder
      match stage with
      | .waiting _ | .returned _ => cases hholds
      | .calling c next => exact ⟨_, answers_of_calling handle hk s⟩
      | .running (.call c next) => exact ⟨_, answers_of_call handle hk s⟩
      | .running (.done report) =>
          -- the lock is given free, and the one that waits takes it
          have hki : k ≠ i := fun hki => by
            rw [hki, hi] at hk
            cases hk
          have hwaits : (r.leave k l' report).invocations[i]? = some ⟨l, .waiting (.call c next)⟩ :=
            (List.getElem?_set_ne hki).trans hi
          refine ⟨[k, i, i, i], ?_⟩
          rw [answers, proceed_of_done hk, answers_of_waiting handle hwaits rfl]
          simp only [isCalling, hk, Bool.false_eq_true, if_false]

/-- One more run that an operator starts, and a call. -/
theorem Inv.exists_answers_enter [Entity ν ρ] (h : r.Inv) (settings : ReconciliationSettings)
    (s : σ) :
    ∃ order, answers handle order (r.enter ⟨settings, .operator, .scheduled⟩, s) = 1 := by
  let l : Launch := ⟨settings, .operator, .scheduled⟩
  obtain ⟨c, next, hprogram⟩ : ∃ c next, l.program ρ = .call c next :=
    ⟨_, _, reconcile_eq_map (.inl rfl) _⟩
  have hi : (r.enter l).invocations[r.invocations.length]? = some ⟨l, .waiting (.call c next)⟩ := by
    simp [RunLock.enter, Launch.invocation, hprogram]
  exact (h.enter l).exists_answers handle hi s

end RunLock

namespace JobSet

variable (env : Surroundings σ) (settings : JobsSettings)

/-- The job whose call is answered when this happens, if one is. -/
def answered? (o : JobSet σ) : Move → Option Web.Target
  | .goOn target i => if (o.lock target).isCalling i then some target else none
  | .start _ _ _ => none
  | .renewToken => none

/-- The jobs whose calls are answered while all this happens, in this order. -/
def answered (o : JobSet σ) : List Move → List Web.Target
  | [] => []
  | m :: rest => (o.answered? m).toList ++ (o.move env settings m).answered rest

theorem answered_append (o : JobSet σ) (moves more : List Move) :
    o.answered env settings (moves ++ more) =
      o.answered env settings moves ++ (o.after env settings moves).answered env settings more := by
  induction moves generalizing o with
  | nil => rfl
  | cons m rest ih =>
      rw [List.cons_append, answered, ih, answered, List.append_assoc]
      rfl

theorem answered_goOn (o : JobSet σ) (target : Web.Target) (order : List Nat) :
    o.answered env settings (order.map (.goOn target)) = List.replicate
      (RunLock.answers (env.backend target).answer order (o.lock target, o.world)) target := by
  induction order generalizing o with
  | nil => rfl
  | cons i rest ih =>
      rw [List.map_cons, answered, ih, answered?, RunLock.answers, lock_goOn, world_goOn]
      cases (o.lock target).isCalling i with
      | false => simp
      | true => rw [Nat.add_comm]; rfl

variable {env : Surroundings σ} {settings : JobsSettings} {moves : List Move} {s : σ} {o : JobSet σ}

/-- Whatever is under way at the two jobs, a call of either one can be the next to be answered. -/
theorem Sound.exists_answered (h : o.Sound env settings moves s) (target : Web.Target) :
    ∃ more, o.answered env settings more = [target] := by
  obtain ⟨order, horder⟩ := (h target).inv.exists_answers_enter (env.backend target).answer
    (settings.reconciliation target) o.world
  refine ⟨.start target .operator .scheduled :: order.map (.goOn target), ?_⟩
  rw [answered, answered_goOn, lock_start]
  exact congrArg (List.replicate · target) horder

theorem Sound.exists_answered_all (h : o.Sound env settings moves s) (pattern : List Web.Target) :
    ∃ more, o.answered env settings more = pattern := by
  induction pattern generalizing o moves with
  | nil => exact ⟨[], rfl⟩
  | cons target rest ih =>
      obtain ⟨first, hfirst⟩ := h.exists_answered target
      obtain ⟨more, hmore⟩ := ih (h.after first)
      exact ⟨first ++ more, by rw [answered_append, hfirst, hmore]; rfl⟩

end JobSet

/-- **Runs of one job never interleave.** Whoever starts the jobs, in whatever modes, and in
whatever order the runs that were started go on: for each of the two jobs the calls are those of one
run after the other, in the order in which the runs took the lock, and no call of a run stands
between two calls of another one. A run that took the lock has made all its calls and returned,
completed or aborted, unless it is the last one and still has the lock. The first call of each run
lists the clients, from the table as all runs before have left it. A run that the scheduler starts
of a job that is switched off returns at once and makes no call. A run that has not returned waits
at most for the run of its own job that has the lock, which can go on. The calls of the two jobs,
however, can come in any order. -/
theorem runs_never_interleave (env : Surroundings σ) (settings : JobsSettings) (moves : List Move)
    (s : σ) :
    let o := (JobSet.initial s).after env settings moves
    (∀ target : Web.Target, (o.lock target).Serial (env.backend target)
        (moves.filterMap (Move.launch? (settings.reconciliation target) target))
        ((env.backend target).table s) o.world) ∧
      ∀ pattern : List Web.Target, ∃ more, o.answered env settings more = pattern := by
  intro o
  have h : o.Sound env settings moves s := (JobSet.Sound.initial env settings s).after moves
  exact ⟨fun target => (h target).inv.serial (h target).faithful (h target).started,
    h.exists_answered_all⟩

/-- Two runs of the portfolio job and one of the other job, which go on in turns: the calls of the
jobs alternate at first, those of the first two runs do not. -/
example :
    let settings : ReconciliationSettings := ⟨true, upswingProvider, 50⟩
    let service : Rehearsal := .start ⟨settings, settings, ⟨true⟩⟩ none
      (MemoryStore.usual ["a"] [] []).table []
    let moves : List Move := [.start .portfolio .schedule .scheduled,
      .start .portfolio .operator .scheduled, .start .pendingJourney .operator .scheduled] ++
      (List.replicate 20
        [.goOn .portfolio 1, .goOn .portfolio 0, .goOn .pendingJourney 0]).flatten
    let o := (JobSet.initial service).after Rehearsal.surroundings service.settings moves
    (o.lock .portfolio).calls.map Prod.fst = [1, 1, 1, 1, 0, 0, 0, 0] ∧
      o.world.log.map (fun | .portfolio .. => true | _ => false) =
        [true, false, true, false, true, true, true, true, true, true] := by
  decide +kernel

/-! ### Runs that are started together -/

/-- The report of a run that has returned. -/
def Stage.report? : Stage ν ρ → Option RunReport
  | returned report => some report
  | waiting _ | running _ | calling _ _ => none

namespace RunLock

variable (handle : (c : Call ν ρ) → σ → c.Answer × σ)

/-- The runs named go on, in this order. -/
def proceedAll (order : List Nat) (now : RunLock ν ρ σ × σ) : RunLock ν ρ σ × σ :=
  order.foldl (fun now i => now.1.proceed handle i now.2) now

theorem proceedAll_append (order more : List Nat) (now : RunLock ν ρ σ × σ) :
    proceedAll handle (order ++ more) now = proceedAll handle more (proceedAll handle order now) :=
  List.foldl_append

/-- A run that has the lock and is let go on returns its report. -/
theorem exists_proceedAll_running (p : RunProgram ν ρ) {r : RunLock ν ρ σ} {i : Nat} {l : Launch}
    (hi : r.invocations[i]? = some ⟨l, .running p⟩) (s : σ) :
    ∃ order r', proceedAll handle order (r, s) = (r', (p.run handle s).2) ∧ r'.holder = none ∧
      r'.invocations = r.invocations.set i ⟨l, .returned (p.run handle s).1⟩ := by
  induction p generalizing r s with
  | done report => exact ⟨[i], r.leave i l report, proceed_of_done hi, rfl, rfl⟩
  | call c next ih =>
      -- two moves for this call: it sets out, and it is answered
      have hsent := getElem?_move (l := l) hi (.calling c next)
      have hanswered := getElem?_move (l := l) hsent (.running (next (handle c s).1))
      let r₁ := (r.move i l (.calling c next)).record i l ⟨c, (handle c s).1, (handle c s).2⟩
        (next (handle c s).1)
      obtain ⟨order, r', hall, hholder, hinvocations⟩ := ih _ (r := r₁) hanswered (handle c s).2
      refine ⟨i :: i :: order, r', ?_, hholder, ?_⟩
      · rw [proceedAll, List.foldl_cons, List.foldl_cons, proceed_of_call hi,
          proceed_of_calling hsent]
        exact hall
      · rw [hinvocations]
        change ((r.invocations.set i _).set i _).set i _ = _
        rw [List.set_set, List.set_set]
        rfl

/-- The runs that were started last go on one after the other, if the lock is free. -/
theorem exists_proceedAll_together [Entity ν ρ] (launches : List Launch) {r : RunLock ν ρ σ}
    (before : List (Invocation ν ρ))
    (h : r.invocations = before ++ launches.map Launch.invocation) (hfree : r.holder = none)
    (s : σ) :
    let runs := Lane.runAll handle (launches.map (Launch.program ρ)) s
    ∃ order r', proceedAll handle order (r, s) = (r', runs.2) ∧
      r'.invocations.map (·.stage.report?) = before.map (·.stage.report?) ++ runs.1.map some := by
  induction launches generalizing r before s with
  | nil => exact ⟨[], r, rfl, by simp [h, Lane.runAll]⟩
  | cons l rest ih =>
      cases hp : l.program ρ with
      | done report =>
          -- this run has returned already
          have hinvocation : (l.invocation : Invocation ν ρ) = ⟨l, .returned report⟩ := by
            simp only [Launch.invocation, hp]
          obtain ⟨order, r', hall, hreports⟩ := ih (r := r) (before ++ [l.invocation]) (by simp [h])
            hfree s
          refine ⟨order, r', ?_, ?_⟩
          · rw [hall, List.map_cons, hp]
            rfl
          · rw [hreports, hinvocation, List.map_cons, hp]
            simp [Lane.runAll, Stage.report?]
      | call c next =>
          -- this run takes the lock, and gives it free for those after it
          have hi : r.invocations[before.length]? = some ⟨l, .waiting (.call c next)⟩ := by
            simp [h, Launch.invocation, hp]
          have htaken := getElem?_move (l := l) hi (.running (.call c next))
          obtain ⟨served, r', hserved, hfree', hinvocations⟩ :=
            exists_proceedAll_running handle _ (r := r.take before.length l _) htaken s
          rw [RunLock.take, move, h, List.set_set] at hinvocations
          obtain ⟨order, r'', hall, hreports⟩ := ih (r := r')
            (before ++ [⟨l, .returned ((Program.call c next).run handle s).1⟩])
            (by simp [hinvocations]) hfree' ((Program.call c next).run handle s).2
          refine ⟨before.length :: (served ++ order), r'', ?_, ?_⟩
          · rw [proceedAll, List.foldl_cons, proceed_of_waiting hi hfree, ← proceedAll,
              proceedAll_append, hserved, hall, List.map_cons, hp]
            rfl
          · rw [hreports, List.map_cons, hp]
            simp [Lane.runAll, Stage.report?]

end RunLock

namespace Lane

variable {C : Type} {A : C → Type} {α : Type}

theorem settle_enter (handle : (c : C) → σ → A c × σ) (programs : List (Program C A α))
    {lane : Lane C A α} (h : lane.active = none → lane.waiting = []) (s : σ) :
    (programs.foldl enter lane).settle handle s =
      (lane.finished ++ (runAll handle (lane.pending ++ programs) s).1,
        (runAll handle (lane.pending ++ programs) s).2) := by
  induction programs generalizing lane with
  | nil => rw [List.append_nil]; rfl
  | cons p rest ih =>
      obtain ⟨active, waiting, finished⟩ := lane
      cases active with
      | none =>
          obtain rfl : waiting = [] := h rfl
          exact ih (by simp [enter])
      | some first =>
          rw [List.foldl_cons, ih (by simp [enter])]
          simp [enter, pending]

end Lane

namespace RunLock

theorem foldl_enter [Entity ν ρ] (launches : List Launch) (r : RunLock ν ρ σ) :
    (launches.foldl enter r).invocations = r.invocations ++ launches.map Launch.invocation ∧
      (launches.foldl enter r).holder = r.holder := by
  induction launches generalizing r with
  | nil => simp
  | cons l rest ih => simp [ih, enter]

/-- All runs started together, as a lane would have them. -/
theorem exists_proceedAll_settle [Entity ν ρ] (handle : (c : Call ν ρ) → σ → c.Answer × σ)
    (launches : List Launch) (s : σ) :
    let settled := ((launches.map (Launch.program ρ)).foldl Lane.enter Lane.idle).settle handle s
    ∃ order r, proceedAll handle order (launches.foldl enter initial, s) = (r, settled.2) ∧
      r.invocations.map (·.stage.report?) = settled.1.map some := by
  intro settled
  obtain ⟨hinvocations, hholder⟩ := foldl_enter launches (initial : RunLock ν ρ σ)
  obtain ⟨order, r, hall, hreports⟩ :=
    exists_proceedAll_together handle launches [] hinvocations hholder s
  refine ⟨order, r, ?_, ?_⟩
  · rw [hall, show settled = _ from Lane.settle_enter handle _ (fun _ => rfl) s]
    rfl
  · rw [hreports, show settled = _ from Lane.settle_enter handle _ (fun _ => rfl) s]
    rfl

end RunLock

namespace JobSet

variable (env : Surroundings σ) (settings : JobsSettings) (o : JobSet σ)

/-- The reports that the runs of one job have been given. -/
def reports (target : Web.Target) : List (Option RunReport) :=
  (o.lock target).invocations.map (·.stage.report?)

/-- Runs of one job go on, in this order. -/
theorem after_goOn (target : Web.Target) (order : List Nat) :
    let o' := o.after env settings (order.map (.goOn target))
    (o'.lock target, o'.world) =
      RunLock.proceedAll (env.backend target).answer order (o.lock target, o.world) := by
  induction order generalizing o with
  | nil => rfl
  | cons i rest ih =>
      have hrest := ih (o.move env settings (.goOn target i))
      rw [lock_goOn] at hrest
      exact hrest

/-- Runs of one job are started, and go on in this order. -/
theorem after_runs (target : Web.Target) (runs : List (Trigger × RefreshMode)) (order : List Nat) :
    let o' := o.after env settings
      (runs.map (fun run => .start target run.1 run.2) ++ order.map (.goOn target))
    (o'.lock target, o'.world) = RunLock.proceedAll (env.backend target).answer order
      ((runs.map fun run => ⟨settings.reconciliation target, run.1, run.2⟩).foldl RunLock.enter
        (o.lock target), o.world) := by
  induction runs generalizing o with
  | nil => exact o.after_goOn env settings target order
  | cons run rest ih =>
      have hrest := ih (o.move env settings (.start target run.1 run.2))
      rw [lock_start] at hrest
      exact hrest

end JobSet

/-- Runs of the service in memory that are started together are those of a lane. -/
theorem Rehearsal.refreshTogether_eq (target : Web.Target) (runs : List (Trigger × RefreshMode))
    (r : Rehearsal) :
    r.refreshTogether target runs =
      ((runs.map fun run => Launch.program target.Row
        ⟨r.settings.reconciliation target, run.1, run.2⟩).foldl Lane.enter Lane.idle).settle
          (Rehearsal.backend target).answer r := by
  rw [List.foldl_map]
  cases target <;> rfl

/-- What the service in memory does with runs that are started together is what comes of it when
they go on in a certain order. -/
theorem refreshTogether_eq_after (target : Web.Target) (runs : List (Trigger × RefreshMode))
    (r : Rehearsal) :
    ∃ order : List Nat,
      let o := (JobSet.initial r).after Rehearsal.surroundings r.settings
        (runs.map (fun run => .start target run.1 run.2) ++ order.map (.goOn target))
      o.world = (r.refreshTogether target runs).2 ∧
        o.reports target = (r.refreshTogether target runs).1.map some := by
  let launches : List Launch := runs.map fun run =>
    ⟨r.settings.reconciliation target, run.1, run.2⟩
  have hsettled : r.refreshTogether target runs =
      ((launches.map (Launch.program target.Row)).foldl Lane.enter Lane.idle).settle
        (Rehearsal.backend target).answer r := by
    rw [r.refreshTogether_eq target runs, List.map_map]
    rfl
  obtain ⟨order, lock, hall, hreports⟩ :=
    RunLock.exists_proceedAll_settle (Rehearsal.backend target).answer launches r
  have hafter := (JobSet.after_runs Rehearsal.surroundings r.settings (.initial r) target runs
    order).trans hall
  obtain ⟨hlock, hworld⟩ := Prod.mk.inj hafter
  refine ⟨order, ?_⟩
  rw [hsettled]
  exact ⟨hworld, (congrArg (·.invocations.map (·.stage.report?)) hlock).trans hreports⟩

end DepositSync
