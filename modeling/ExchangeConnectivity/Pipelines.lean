import ExchangeConnectivity.ActionRuns
import ExchangeConnectivity.BookUpdates
import Mathlib.Algebra.Group.Nat.Defs

/-!
# The pipeline without a pool

The queue, `produce` and `consume` of the benchmark in `pools/main.cpp`, and
`runBaseline` as the interleaving of its producer thread with its consumer
loop.  Every state the two reach is on course: what has been consumed, what is
on its way and what is still to be pushed are the messages in order.
-/

namespace ExchangeConnectivity

open ActionRuns

namespace Pools

namespace PerfTests

structure Queue (T : Type) where
  items : List T := []
  closed : Bool := false

namespace Queue

variable {T : Type}

def push (queue : Queue T) (value : T) : Queue T :=
  { queue with items := queue.items ++ [value] }

/-- No result while the caller has to wait; then the value, or none if the
queue has been closed. -/
def pop (queue : Queue T) : Option (Queue T × Option T) :=
  match queue.items with
  | [] => if queue.closed then some (queue, none) else none
  | value :: items => some ({ queue with items }, some value)

def close (queue : Queue T) : Queue T :=
  { queue with closed := true }

/-- The queue as it is when its items stand for others. -/
def map {U : Type} (meaning : T → U) (queue : Queue T) : Queue U where
  items := queue.items.map meaning
  closed := queue.closed

theorem pop_cases {queue next : Queue T} {result : Option T}
    (popped : queue.pop = some (next, result)) :
    (result = none ∧ next = queue ∧ queue.items = [] ∧ queue.closed = true) ∨
      ∃ value, result = some value ∧ queue.items = value :: next.items ∧
        next.closed = queue.closed := by
  rw [pop] at popped
  split at popped
  next empty =>
    split at popped
    next closed => cases popped; exact .inl ⟨rfl, rfl, empty, closed⟩
    next => cases popped
  next value items found => cases popped; exact .inr ⟨value, rfl, found, rfl⟩

theorem pop_map {U : Type} (meaning : T → U) (queue : Queue T) :
    (queue.map meaning).pop =
      queue.pop.map fun (next, result) => (next.map meaning, result.map meaning) := by
  cases queue with
  | mk items closed => cases items <;> cases closed <;> rfl

end Queue

def updateLevelCount : Nat :=
  50

def produce (update : BookUpdate) (sequence : UInt64) : BookUpdate :=
  { update with
    exchangeTimestamp := sequence
    firstSequence := sequence
    lastSequence := sequence
    updates := (List.range updateLevelCount).map fun index =>
      { side := .buy
        price := (100000 + UInt64.ofNat index).toInt64
        quantity := (sequence + UInt64.ofNat index).toInt64 } }

def consume (update : BookUpdate) : UInt64 :=
  update.updates.foldl
    (fun checksum level => checksum + level.price.toUInt64 + level.quantity.toUInt64)
    update.firstSequence

/-- `produce` leaves nothing of the object it gets. -/
theorem produce_eq (update : BookUpdate) (sequence : UInt64) :
    produce update sequence = produce {} sequence :=
  rfl

/-- The message with a sequence number. -/
def message (sequence : Nat) : BookUpdate :=
  produce {} (UInt64.ofNat sequence)

/-- The first messages, in order. -/
def messages (count : Nat) : List BookUpdate :=
  (List.range count).map fun index => message (index + 1)

theorem messages_succ (count : Nat) :
    messages (count + 1) = messages count ++ [message (count + 1)] := by
  rw [messages, List.range_succ, List.map_append]
  rfl

@[simp]
theorem messages_length (count : Nat) : (messages count).length = count := by
  rw [messages, List.length_map, List.length_range]

/-- What a pipeline reports; `consumed` logs the contents that `consume` has been
called with. -/
structure TestResult where
  messagesProcessed : Nat := 0
  checksum : UInt64 := 0
  consumed : List BookUpdate := []

/-- One turn of the consumer loop. -/
def TestResult.count (result : TestResult) (update : BookUpdate) : TestResult where
  messagesProcessed := result.messagesProcessed + 1
  checksum := result.checksum + consume update
  consumed := result.consumed ++ [update]

def totalChecksum (updates : List BookUpdate) : UInt64 :=
  updates.foldl (fun checksum update => checksum + consume update) 0

theorem totalChecksum_concat (updates : List BookUpdate) (update : BookUpdate) :
    totalChecksum (updates ++ [update]) = totalChecksum updates + consume update := by
  rw [totalChecksum, List.foldl_append]
  rfl

/-- What a pipeline that has delivered all messages reports. -/
def report (messageCount : Nat) : TestResult where
  messagesProcessed := messageCount
  checksum := totalChecksum (messages messageCount)
  consumed := messages messageCount

/-- The thread that takes the next step. -/
inductive Thread
  | producer
  | consumer

/-- No run goes on for ever. -/
def Ends {State : Type} (step : State → Thread → Option State) (start : State) : Prop :=
  ∃ bound, ∀ threads final, runFrom step start threads = some final → threads.length ≤ bound

namespace Baseline

/-- Where the producer stands: at the head of its loop, with an object to fill,
with one to push, or at its end.  The counter of the loop is an unsigned number
of 64 bits. -/
inductive Producer
  | starting (sequence : Nat)
  | producing (sequence : Nat) (update : BookUpdate)
  | pushing (sequence : Nat) (update : BookUpdate)
  | finished

inductive Consumer
  | waiting
  | consuming (update : BookUpdate)
  | finished

structure State where
  producer : Producer := .starting 1
  queue : Queue BookUpdate := {}
  consumer : Consumer := .waiting
  result : TestResult := {}

def stepProducer (messageCount : Nat) (state : State) : Option State :=
  match state.producer with
  | .starting sequence =>
      if sequence ≤ messageCount then some { state with producer := .producing sequence {} }
      else some { state with producer := .finished, queue := state.queue.close }
  | .producing sequence update =>
      some
        { state with producer := .pushing sequence (produce update (UInt64.ofNat sequence)) }
  | .pushing sequence update =>
      some
        { state with
          producer := .starting ((sequence + 1) % 2 ^ 64)
          queue := state.queue.push update }
  | .finished => none

def stepConsumer (state : State) : Option State :=
  match state.consumer with
  | .waiting =>
      state.queue.pop.map fun (queue, value) =>
        match value with
        | none => { state with queue, consumer := .finished }
        | some update => { state with queue, consumer := .consuming update }
  | .consuming update =>
      some { state with consumer := .waiting, result := state.result.count update }
  | .finished => none

def step (messageCount : Nat) (state : State) : Thread → Option State
  | .producer => stepProducer messageCount state
  | .consumer => stepConsumer state

def Producer.update : Producer → Option BookUpdate
  | .pushing _ update => some update
  | _ => none

def Consumer.update : Consumer → Option BookUpdate
  | .consuming update => some update
  | _ => none

/-- The number of messages the producer has produced, if it is at a place in
its loop that it can be in. -/
def Producer.Produced (messageCount : Nat) : Producer → Nat → Prop
  | .starting sequence, produced => sequence = produced + 1 ∧ produced ≤ messageCount
  | .producing sequence _, produced => sequence = produced + 1 ∧ produced < messageCount
  | .pushing sequence _, produced => sequence = produced ∧ produced ≤ messageCount
  | .finished, produced => produced = messageCount

/-- The messages produced have been consumed or are on their way, in order and
as they were produced; the report counts those consumed, which are all when the
consumer loop has ended. -/
structure OnCourse (messageCount : Nat) (state : State) : Prop where
  inOrder : ∃ produced, state.producer.Produced messageCount produced ∧
    state.result.consumed ++ state.consumer.update.toList ++ state.queue.items ++
      state.producer.update.toList = messages produced
  processed : state.result.messagesProcessed = state.result.consumed.length
  checksum : state.result.checksum = totalChecksum state.result.consumed
  closed : state.queue.closed = true ↔ state.producer = .finished
  ended : state.consumer = .finished →
    state.queue.closed = true ∧ state.result = report messageCount

theorem start_onCourse (messageCount : Nat) : OnCourse messageCount {} where
  inOrder := ⟨0, ⟨rfl, Nat.zero_le _⟩, rfl⟩
  processed := rfl
  checksum := rfl
  closed := iff_of_false nofun nofun
  ended := nofun

section Steps

variable {messageCount : Nat} {state next : State}

theorem OnCourse.reports (onCourse : OnCourse messageCount state)
    (all : state.result.consumed = messages messageCount) :
    state.result = report messageCount := by
  have processed := onCourse.processed
  have checksum := onCourse.checksum
  rw [all] at processed checksum
  rw [messages_length] at processed
  calc
    state.result = ⟨state.result.messagesProcessed, state.result.checksum,
        state.result.consumed⟩ := rfl
    _ = report messageCount := by rw [processed, checksum, all, report]

theorem OnCourse.stepProducer (bound : messageCount < 2 ^ 64 - 1)
    (onCourse : OnCourse messageCount state)
    (stepped : stepProducer messageCount state = some next) : OnCourse messageCount next := by
  obtain ⟨produced, place, inOrder⟩ := onCourse.inOrder
  have open_ : state.producer ≠ .finished → state.queue.closed ≠ true :=
    fun busy closed => busy (onCourse.closed.mp closed)
  rw [Baseline.stepProducer] at stepped
  cases at_ : state.producer with
  | starting sequence =>
      rw [at_] at place inOrder
      obtain ⟨rfl, le⟩ := place
      have notClosed := open_ (by rw [at_]; nofun)
      simp only [at_] at stepped
      split at stepped
      next more =>
        cases stepped
        constructor
        case inOrder => exact ⟨produced, ⟨rfl, more⟩, inOrder⟩
        case processed => exact onCourse.processed
        case checksum => exact onCourse.checksum
        case closed => exact iff_of_false notClosed nofun
        case ended => exact fun finished => absurd (onCourse.ended finished).1 notClosed
      next noMore =>
        cases stepped
        have all : produced = messageCount := by omega
        constructor
        case inOrder => exact ⟨produced, all, inOrder⟩
        case processed => exact onCourse.processed
        case checksum => exact onCourse.checksum
        case closed => exact iff_of_true rfl rfl
        case ended => exact fun finished => ⟨rfl, (onCourse.ended finished).2⟩
  | producing sequence update =>
      rw [at_] at place inOrder
      obtain ⟨rfl, lt⟩ := place
      have notClosed := open_ (by rw [at_]; nofun)
      simp only [at_, Option.some_inj] at stepped
      subst stepped
      constructor
      case inOrder =>
        refine ⟨produced + 1, ⟨rfl, lt⟩, ?_⟩
        rw [messages_succ, ← inOrder]
        simp [Producer.update, message, produce_eq update]
      case processed => exact onCourse.processed
      case checksum => exact onCourse.checksum
      case closed => exact iff_of_false notClosed nofun
      case ended => exact fun finished => absurd (onCourse.ended finished).1 notClosed
  | pushing sequence update =>
      rw [at_] at place inOrder
      obtain ⟨rfl, le⟩ := place
      have notClosed := open_ (by rw [at_]; nofun)
      have counted : (sequence + 1) % 2 ^ 64 = sequence + 1 := Nat.mod_eq_of_lt (by omega)
      simp only [at_, counted, Option.some_inj] at stepped
      subst stepped
      constructor
      case inOrder =>
        refine ⟨sequence, ⟨rfl, le⟩, ?_⟩
        rw [← inOrder]
        simp [Producer.update, Queue.push]
      case processed => exact onCourse.processed
      case checksum => exact onCourse.checksum
      case closed => exact iff_of_false notClosed nofun
      case ended => exact fun finished => absurd (onCourse.ended finished).1 notClosed
  | finished =>
      rw [at_] at stepped
      cases stepped

theorem OnCourse.stepConsumer (onCourse : OnCourse messageCount state)
    (stepped : stepConsumer state = some next) : OnCourse messageCount next := by
  obtain ⟨produced, place, inOrder⟩ := onCourse.inOrder
  rw [Baseline.stepConsumer] at stepped
  cases at_ : state.consumer with
  | waiting =>
      rw [at_] at inOrder
      simp only [at_] at stepped
      obtain ⟨⟨queue, value⟩, popped, rfl⟩ := Option.map_eq_some_iff.mp stepped
      rcases Queue.pop_cases popped with ⟨rfl, rfl, empty, closed⟩ | ⟨update, rfl, items, closed⟩
      · have atEnd := onCourse.closed.mp closed
        have all : state.result.consumed = messages messageCount := by
          rw [atEnd] at place inOrder
          rw [empty, place] at inOrder
          simpa [Consumer.update, Producer.update] using inOrder
        constructor
        case inOrder => exact ⟨produced, place, inOrder⟩
        case processed => exact onCourse.processed
        case checksum => exact onCourse.checksum
        case closed => exact onCourse.closed
        case ended => exact fun _ => ⟨closed, onCourse.reports all⟩
      · constructor
        case inOrder =>
          refine ⟨produced, place, ?_⟩
          rw [← inOrder, items]
          simp [Consumer.update]
        case processed => exact onCourse.processed
        case checksum => exact onCourse.checksum
        case closed => exact closed ▸ onCourse.closed
        case ended => nofun
  | consuming update =>
      rw [at_] at inOrder
      simp only [at_, Option.some_inj] at stepped
      subst stepped
      constructor
      case inOrder =>
        refine ⟨produced, place, ?_⟩
        rw [← inOrder]
        simp [Consumer.update, TestResult.count]
      case processed =>
        rw [TestResult.count, onCourse.processed, List.length_append]
        rfl
      case checksum => rw [TestResult.count, totalChecksum_concat, onCourse.checksum]
      case closed => exact onCourse.closed
      case ended => nofun
  | finished =>
      rw [at_] at stepped
      cases stepped

theorem OnCourse.step (bound : messageCount < 2 ^ 64 - 1)
    (onCourse : OnCourse messageCount state) {thread : Thread}
    (stepped : step messageCount state thread = some next) : OnCourse messageCount next := by
  cases thread with
  | producer => exact onCourse.stepProducer bound stepped
  | consumer => exact onCourse.stepConsumer stepped

/-- The baseline has stayed where it was or taken one step. -/
def Follows (messageCount : Nat) (state next : State) : Prop :=
  next = state ∨ ∃ thread, step messageCount state thread = some next

theorem OnCourse.follows (bound : messageCount < 2 ^ 64 - 1)
    (onCourse : OnCourse messageCount state)
    (follows : Follows messageCount state next) : OnCourse messageCount next := by
  rcases follows with rfl | ⟨thread, stepped⟩
  · exact onCourse
  · exact onCourse.step bound stepped

/-- A pipeline in which neither thread can go on has reported all messages. -/
theorem OnCourse.reports_of_stuck (onCourse : OnCourse messageCount state)
    (stuck : ∀ thread, Baseline.step messageCount state thread = none) :
    state.result = report messageCount := by
  have producerStuck : Baseline.stepProducer messageCount state = none := stuck .producer
  have consumerStuck : Baseline.stepConsumer state = none := stuck .consumer
  have atEnd : state.producer = .finished := by
    rw [Baseline.stepProducer] at producerStuck
    cases at_ : state.producer with
    | starting sequence =>
        simp only [at_] at producerStuck
        split at producerStuck <;> cases producerStuck
    | producing | pushing =>
        rw [at_] at producerStuck
        cases producerStuck
    | finished => rfl
  have closed := onCourse.closed.mpr atEnd
  rw [Baseline.stepConsumer] at consumerStuck
  cases at_ : state.consumer with
  | waiting =>
      simp only [at_, Option.map_eq_none_iff, Queue.pop, closed] at consumerStuck
      split at consumerStuck <;> cases consumerStuck
  | consuming update =>
      rw [at_] at consumerStuck
      cases consumerStuck
  | finished => exact (onCourse.ended at_).2

/-- The most steps each part of the pipeline has still to go, with those of the
consumer for the messages yet to come. -/
def Producer.work (messageCount : Nat) : Producer → Nat
  | .starting sequence => 5 * (messageCount + 1 - sequence) + 1
  | .producing sequence _ => 5 * (messageCount - sequence) + 5
  | .pushing sequence _ => 5 * (messageCount - sequence) + 4
  | .finished => 0

def Consumer.work : Consumer → Nat
  | .waiting => 1
  | .consuming _ => 2
  | .finished => 0

def State.work (messageCount : Nat) (state : State) : Nat :=
  state.producer.work messageCount + 2 * state.queue.items.length + state.consumer.work

theorem OnCourse.step_work (bound : messageCount < 2 ^ 64 - 1)
    (onCourse : OnCourse messageCount state) {thread : Thread}
    (stepped : Baseline.step messageCount state thread = some next) :
    next.work messageCount < state.work messageCount := by
  cases thread with
  | producer =>
      obtain ⟨produced, place, -⟩ := onCourse.inOrder
      rw [Baseline.step, Baseline.stepProducer] at stepped
      cases at_ : state.producer with
      | starting sequence =>
          simp only [at_] at stepped
          split at stepped <;> cases stepped <;>
            simp only [State.work, Producer.work, Queue.close, at_] <;> omega
      | producing sequence update =>
          rw [at_] at stepped
          cases stepped
          simp only [State.work, Producer.work, at_]
          omega
      | pushing sequence update =>
          rw [at_] at place stepped
          obtain ⟨rfl, le⟩ := place
          have counted : (sequence + 1) % 2 ^ 64 = sequence + 1 := Nat.mod_eq_of_lt (by omega)
          simp only [counted, Option.some_inj] at stepped
          subst stepped
          simp only [State.work, Producer.work, Queue.push, at_, List.length_append,
            List.length_singleton]
          omega
      | finished =>
          rw [at_] at stepped
          cases stepped
  | consumer =>
      rw [Baseline.step, Baseline.stepConsumer] at stepped
      cases at_ : state.consumer with
      | waiting =>
          simp only [at_] at stepped
          obtain ⟨⟨queue, value⟩, popped, rfl⟩ := Option.map_eq_some_iff.mp stepped
          rcases Queue.pop_cases popped with ⟨rfl, rfl, -⟩ | ⟨update, rfl, items, -⟩
          · simp only [State.work, Consumer.work, at_]
            omega
          · simp only [State.work, Consumer.work, at_, items, List.length_cons]
            omega
      | consuming update =>
          rw [at_] at stepped
          cases stepped
          simp only [State.work, Consumer.work, at_]
          omega
      | finished =>
          rw [at_] at stepped
          cases stepped

/-- The messages arrive, and they have all been reported when the pipeline ends. -/
structure Delivering (messageCount : Nat) (state : State) : Prop where
  onCourse : OnCourse messageCount state
  reports : (∀ thread, step messageCount state thread = none) →
    state.result = report messageCount

theorem OnCourse.delivering (onCourse : OnCourse messageCount state) :
    Delivering messageCount state where
  onCourse := onCourse
  reports := onCourse.reports_of_stuck

end Steps

end Baseline

end PerfTests

end Pools

end ExchangeConnectivity
