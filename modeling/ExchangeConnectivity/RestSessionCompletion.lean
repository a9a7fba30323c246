import ExchangeConnectivity.RestSession

/-!
# One response for every REST request

Whatever the order in which the stages and the deadline of a session complete,
its handler is called once: the invariant says which operations are
outstanding in each state, and every completion keeps it.
-/

namespace ExchangeConnectivity

open ActionRuns ByteStrings

namespace RestSession

/-- The handler is still there, has not been called, and the deadline has not
been cancelled. -/
structure Unanswered (session : Session) : Prop where
  waiting : session.hasHandler = true
  silent : session.invocations = []
  armed : session.deadlineCancelled = false

/-- Between two callbacks a session either waits to be executed, or runs with
the deadline and one stage outstanding, or has called its handler. -/
inductive Consistent (session : Session) : Prop
  | idle (stateEq : session.state = .idle)
      (outstandingEq : session.outstanding = [.execute])
      (unanswered : Unanswered session)
  | running (stateEq : session.state = .running) (stage : Operation)
      (isStage : stage.IsStage) (outstandingEq : session.outstanding = [.deadline, stage])
      (unanswered : Unanswered session)
  | completed (stateEq : session.state = .completed)
      (executed : .execute ∉ session.outstanding)
      (answered : session.invocations.length = 1)

theorem Unanswered.finish {session : Session} (unanswered : Unanswered session)
    (operation : Operation) : Unanswered (session.finish operation) :=
  ⟨unanswered.waiting, unanswered.silent, unanswered.armed⟩

theorem run_consistent (request : HttpRequest) : Consistent (run request true) :=
  .idle rfl rfl ⟨rfl, rfl, rfl⟩

/-- Completing a session that has not answered answers it. -/
theorem complete_consistent {session : Session} (response : Response)
    (incomplete : session.state ≠ .completed) (executed : .execute ∉ session.outstanding)
    (unanswered : Unanswered session) : Consistent (complete session response) := by
  rw [complete, if_neg incomplete]
  simp only [unanswered.waiting, if_true]
  refine .completed rfl executed ?_
  simp only [unanswered.silent, List.nil_append, List.length_singleton]

/-- Starting a stage next to the deadline keeps the session running. -/
theorem start_consistent {session : Session} (stage : Operation) (isStage : stage.IsStage)
    (stateEq : session.state = .running) (outstandingEq : session.outstanding = [.deadline])
    (unanswered : Unanswered session) : Consistent (session.start stage) := by
  refine .running stateEq stage isStage ?_
    ⟨unanswered.waiting, unanswered.silent, unanswered.armed⟩
  simp only [Session.start, outstandingEq, List.cons_append, List.nil_append]

theorem execute_consistent {session : Session} (tlsName : TlsName)
    (outstandingEq : session.outstanding = []) (unanswered : Unanswered session) :
    Consistent (execute session tlsName) := by
  have executed : Operation.execute ∉ session.outstanding := by
    simp [outstandingEq]
  have fails (error : RestError) (message : Bytes) :
      Consistent (fail { session with state := .running } error message) :=
    complete_consistent _ (by simp) executed
      ⟨unanswered.waiting, unanswered.silent, unanswered.armed⟩
  simp only [execute]
  split
  · exact fails _ _
  · cases tlsName with
    | rejected error => exact fails _ _
    | accepted =>
        refine start_consistent .resolve trivial rfl ?_
          ⟨unanswered.waiting, unanswered.silent, unanswered.armed⟩
        simp [Session.start, outstandingEq]

section Running

variable {session final : Session}
variable (stateEq : session.state = .running)
variable (outstandingEq : session.outstanding = [.deadline])
variable (unanswered : Unanswered session)
include stateEq outstandingEq unanswered

/-- A stage that has completed either fails the session or starts the next
stage. -/
theorem onStage_consistent {error : Option Bytes} {failure : RestError}
    {next : Option Session} (nextConsistent : ∀ later, next = some later → Consistent later)
    (result : onStage session error failure next = some final) : Consistent final := by
  have incomplete : session.state ≠ .completed := by simp [stateEq]
  cases error with
  | some message =>
      simp only [onStage, if_neg incomplete] at result
      cases result
      exact complete_consistent _ incomplete (by simp [outstandingEq]) unanswered
  | none =>
      simp only [onStage, if_neg incomplete] at result
      exact nextConsistent final result

theorem callback_stage_consistent {throws : HttpMessage → Bool} {completion : Completion}
    (isStage : completion.operation.IsStage)
    (result : callback throws session completion = some final) : Consistent final := by
  have starts (stage : Operation) (isStage : stage.IsStage) (later : Session)
      (equal : some (session.start stage) = some later) : Consistent later := by
    cases equal
    exact start_consistent stage isStage stateEq outstandingEq unanswered
  have onward := @onStage_consistent session final stateEq outstandingEq unanswered
  cases completion with
  | execute tlsName => exact isStage.elim
  | deadline error => exact isStage.elim
  | resolve error => exact onward (starts .connect trivial) result
  | connect error => exact onward (starts .handshake trivial) result
  | handshake error =>
      refine onward ?_ result
      intro later equal
      split at equal
      · cases equal
      · cases equal
        exact start_consistent .write trivial stateEq outstandingEq
          ⟨unanswered.waiting, unanswered.silent, unanswered.armed⟩
  | write error => exact onward (starts .read trivial) result
  | read outcome =>
      cases outcome with
      | error message =>
          simp only [callback, onRead] at result
          refine onward ?_ result
          intro later equal
          cases equal
      | ok response =>
          simp only [callback, onRead] at result
          refine onward ?_ result
          intro later equal
          cases equal
          exact complete_consistent _ (by simp [stateEq]) (by simp [outstandingEq])
            unanswered

end Running

theorem onTimeout_consistent {session : Session} (stateEq : session.state = .running)
    (executed : .execute ∉ session.outstanding) (unanswered : Unanswered session) :
    Consistent (onTimeout session none) := by
  have incomplete : session.state ≠ .completed := by simp [stateEq]
  rw [onTimeout, if_neg (by simp [incomplete])]
  exact complete_consistent _ incomplete executed
    ⟨unanswered.waiting, unanswered.silent, unanswered.armed⟩

/-- After completion the callbacks leave the session alone. -/
theorem callback_completed {throws : HttpMessage → Bool} {session : Session}
    {completion : Completion} (stateEq : session.state = .completed)
    (executed : completion.operation ≠ .execute) :
    callback throws session completion = some session := by
  have stays (error : Option Bytes) (failure : RestError) (next : Option Session) :
      onStage session error failure next = some session := if_pos stateEq
  cases completion with
  | execute tlsName => exact absurd rfl executed
  | deadline error =>
      rw [callback, onTimeout, if_pos (Or.inr stateEq)]
  | resolve error => exact stays _ _ _
  | connect error => exact stays _ _ _
  | handshake error => exact stays _ _ _
  | write error => exact stays _ _ _
  | read outcome => cases outcome <;> simp only [callback, onRead, stays]

theorem step_eq_some_iff {throws : HttpMessage → Bool} {session next : Session}
    {completion : Completion} :
    step throws session completion = some next ↔
      completion.Possible session ∧
      callback throws (session.finish completion.operation) completion = some next := by
  unfold step
  split <;> simp_all

/-- A step of a completed session only finishes an operation. -/
theorem eq_finish_of_completed {throws : HttpMessage → Bool} {session next : Session}
    {completion : Completion} (stateEq : session.state = .completed)
    (executed : .execute ∉ session.outstanding)
    (stepped : step throws session completion = some next) :
    next = session.finish completion.operation := by
  obtain ⟨⟨member, -⟩, result⟩ := step_eq_some_iff.mp stepped
  have sameState : (session.finish completion.operation).state = session.state := rfl
  have notExecute : completion.operation ≠ .execute := by
    intro equal
    rw [equal] at member
    exact executed member
  rw [callback_completed (sameState.trans stateEq) notExecute] at result
  exact (Option.some.inj result).symm

theorem step_consistent {throws : HttpMessage → Bool} {session next : Session}
    {completion : Completion} (consistent : Consistent session)
    (stepped : step throws session completion = some next) : Consistent next := by
  obtain ⟨⟨member, cancelled⟩, result⟩ := step_eq_some_iff.mp stepped
  have sameState : (session.finish completion.operation).state = session.state := rfl
  cases consistent with
  | idle stateEq outstandingEq unanswered =>
      rw [outstandingEq, List.mem_singleton] at member
      cases completion with
      | execute tlsName =>
          cases result
          apply execute_consistent tlsName _ (unanswered.finish _)
          simp [Session.finish, outstandingEq, Completion.operation]
      | _ => cases member
  | running stateEq stage isStage outstandingEq unanswered =>
      rw [outstandingEq, List.mem_cons, List.mem_singleton] at member
      rcases member with timer | finished
      · cases completion with
        | deadline error =>
            cases error with
            | some message =>
                have armed := unanswered.armed
                rw [cancelled message rfl] at armed
                cases armed
            | none =>
                cases result
                refine onTimeout_consistent stateEq ?_ (unanswered.finish _)
                rw [Session.finish, outstandingEq, timer, List.erase_cons_head,
                  List.mem_singleton]
                rintro rfl
                exact isStage.elim
        | _ => cases timer
      · subst finished
        refine callback_stage_consistent (sameState.trans stateEq) ?_ (unanswered.finish _)
          isStage result
        have notDeadline : Operation.deadline ≠ completion.operation := by
          intro equal
          rw [← equal] at isStage
          exact isStage.elim
        simp [Session.finish, outstandingEq, notDeadline]
  | completed stateEq executed answered =>
      obtain rfl := eq_finish_of_completed stateEq executed stepped
      exact .completed stateEq (fun later => executed (List.mem_of_mem_erase later)) answered

/-- A completed session that has started these operations. -/
def CompletedWith (started : List Operation) (session : Session) : Prop :=
  session.state = .completed ∧ .execute ∉ session.outstanding ∧
    session.started = started

/-- Completion is final, and nothing is started after it. -/
theorem step_completedWith {throws : HttpMessage → Bool} {started : List Operation}
    {session next : Session} {completion : Completion}
    (completed : CompletedWith started session)
    (stepped : step throws session completion = some next) :
    CompletedWith started next := by
  obtain ⟨stateEq, executed, startedEq⟩ := completed
  obtain rfl := eq_finish_of_completed stateEq executed stepped
  exact ⟨stateEq, fun later => executed (List.mem_of_mem_erase later), startedEq⟩

theorem consistent_of_run {throws : HttpMessage → Bool} {request : HttpRequest}
    {completions : List Completion} {session : Session}
    (reached : runFrom (step throws) (run request true) completions = some session) :
    Consistent session :=
  invariant_of_run step_consistent reached (run_consistent request)

theorem Consistent.invocations_le {session : Session} (consistent : Consistent session) :
    session.invocations.length ≤ 1 := by
  cases consistent with
  | idle _ _ unanswered => simp [unanswered.silent]
  | running _ _ _ _ unanswered => simp [unanswered.silent]
  | completed _ _ answered => exact Nat.le_of_eq answered

theorem Consistent.invocations_of_quiet {session : Session} (consistent : Consistent session)
    (quiet : session.outstanding = []) : session.invocations.length = 1 := by
  cases consistent with
  | idle _ outstandingEq _ => simp [quiet] at outstandingEq
  | running _ _ _ outstandingEq _ => simp [quiet] at outstandingEq
  | completed _ _ answered => exact answered

/-- In every run the handler of a session is called at most once, and once
when nothing is outstanding; completion is final, and a running session has
exactly the deadline and one stage outstanding. -/
theorem handler_called_once {throws : HttpMessage → Bool} {request : HttpRequest}
    {completions : List Completion} {session : Session}
    (reached : runFrom (step throws) (run request true) completions = some session) :
    session.invocations.length ≤ 1 ∧
    (session.outstanding = [] → session.invocations.length = 1) ∧
    (session.state = .completed → ∀ later final,
      runFrom (step throws) session later = some final →
        final.state = .completed ∧ final.started = session.started) ∧
    (session.state = .running →
      ∃ stage, stage.IsStage ∧ session.outstanding = [.deadline, stage]) := by
  have consistent := consistent_of_run reached
  refine ⟨consistent.invocations_le, consistent.invocations_of_quiet, ?_, ?_⟩
  · intro stateEq later final run
    have executed : .execute ∉ session.outstanding := by
      cases consistent with
      | idle otherwise _ _ => simp [stateEq] at otherwise
      | running otherwise _ _ _ _ => simp [stateEq] at otherwise
      | completed _ executed _ => exact executed
    obtain ⟨stays, -, same⟩ := invariant_of_run step_completedWith run
      ⟨stateEq, executed, rfl⟩
    exact ⟨stays, same⟩
  · intro stateEq
    cases consistent with
    | idle otherwise _ _ => simp [stateEq] at otherwise
    | running _ stage isStage outstandingEq _ => exact ⟨stage, isStage, outstandingEq⟩
    | completed otherwise _ _ => simp [stateEq] at otherwise

/-- A request that succeeds just as the deadline passes: the late timer finds
the session completed. -/
def lateDeadline : List Completion :=
  [.execute .accepted, .resolve none, .connect none, .handshake none, .write none,
    .read (.ok { status := 200, headers := [], body := [] }), .deadline none]

theorem handler_called_once_lateDeadline :
    ∃ session, runFrom (step fun _ => false)
        (run { host := ascii "api.binance.com" } true) lateDeadline = some session ∧
      session.outstanding = [] ∧ session.invocations.length = 1 := by
  refine ⟨_, rfl, rfl, ?_⟩
  exact (@handler_called_once (fun _ => false) { host := ascii "api.binance.com" }
    lateDeadline _ rfl).2.1 rfl

end RestSession

end ExchangeConnectivity
