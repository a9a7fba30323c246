import ExchangeConnectivity.RingBufferRuns

/-!
# The ring buffer is a bounded queue

Under every interleaving of the steps of its two threads the ring buffer goes
through the operations of a bounded queue, each between the call it belongs to
and its return, and with the result the call returns.
-/

namespace ExchangeConnectivity

open ActionRuns BoundedQueue

namespace Pools

namespace RingBuffer

variable {T : Type*} {capacity : Capacity} {ring next : RingBuffer T capacity}

/-- What a step of the producer does, with the result it returns. -/
inductive ProducerEffect (ring next : RingBuffer T capacity) : Option Bool → Prop
  | silent (history : next.history = ring.history)
      (item : next.producer.item = ring.producer.item) :
      ProducerEffect ring next none
  | refuse {item : T} {seq : Nat} (at_ : ring.producer = .refresh item seq)
      (history : next.history = ring.history ++ [.refuse item])
      (item : next.producer.item = some item) : ProducerEffect ring next none
  | full {item : T} {seq : Nat} (at_ : ring.producer = .recheck item seq)
      (history : next.history = ring.history) (idle : next.producer = .idle)
      (returned : next.returned = ring.returned ++ [(item, false)]) :
      ProducerEffect ring next (some false)
  | push {item : T} {seq : Nat} (at_ : ring.producer = .publish item seq)
      (history : next.history = ring.history ++ [.push item]) (idle : next.producer = .idle) :
      ProducerEffect ring next (some true)

/-- What a step of the consumer does, with the result it returns. -/
inductive ConsumerEffect (ring next : RingBuffer T capacity) : Option (Option T) → Prop
  | silent (history : next.history = ring.history) (taken : next.taken = ring.taken) :
      ConsumerEffect ring next none
  | miss {seq : Nat} (at_ : ring.consumer = .refresh seq)
      (history : next.history = ring.history ++ [.miss]) (taken : next.taken = ring.taken) :
      ConsumerEffect ring next none
  | nothing {seq : Nat} (at_ : ring.consumer = .recheck seq)
      (history : next.history = ring.history) (taken : next.taken = ring.taken ++ [none]) :
      ConsumerEffect ring next (some none)
  | pop {item : T} {seq : Nat} (at_ : ring.consumer = .publish item seq)
      (history : next.history = ring.history ++ [.pop item])
      (taken : next.taken = ring.taken ++ [some item]) :
      ConsumerEffect ring next (some (some item))

theorem stepProducer_effect {result : Option Bool}
    (stepped : ring.stepProducer = some (next, result)) : ProducerEffect ring next result := by
  cases stepProducer_cases stepped with
  | seesFull at_ | seesRoom at_ | refresh at_ | room at_ | write at_ =>
      exact .silent rfl (congrArg Producer.item at_).symm
  | refuse at_ => exact .refuse at_ rfl rfl
  | full at_ => exact .full at_ rfl rfl rfl
  | publish at_ => exact .push at_ rfl rfl

theorem stepConsumer_effect {movedFrom : T → T} {result : Option (Option T)}
    (stepped : ring.stepConsumer movedFrom = some (next, result)) :
    ConsumerEffect ring next result := by
  cases stepConsumer_cases stepped with
  | seesEmpty | seesItem | refresh | item | read => exact .silent rfl rfl
  | miss at_ => exact .miss at_ rfl rfl
  | empty at_ => exact .nothing at_ rfl rfl
  | publish at_ => exact .pop at_ rfl rfl

/-- A step of the producer leaves the consumer alone. -/
theorem stepProducer_consumer {result : Option Bool}
    (stepped : ring.stepProducer = some (next, result)) :
    next.consumer = ring.consumer ∧ next.taken = ring.taken := by
  cases stepProducer_cases stepped <;> exact ⟨rfl, rfl⟩

/-- A step of the consumer leaves the producer alone. -/
theorem stepConsumer_producer {movedFrom : T → T} {result : Option (Option T)}
    (stepped : ring.stepConsumer movedFrom = some (next, result)) :
    next.producer = ring.producer := by
  cases stepConsumer_cases stepped <;> rfl

/-- The operation takes effect in the next step: an element is added or removed
when its cursor is published, and a call fails when it refreshes its copy. -/
def TakesEffect (ring : RingBuffer T capacity) : BoundedQueue.Operation T → Prop
  | .push item => ∃ seq, ring.producer = .publish item seq
  | .refuse item => ∃ seq, ring.producer = .refresh item seq
  | .pop item => ∃ seq, ring.consumer = .publish item seq
  | .miss => ∃ seq, ring.consumer = .refresh seq

/-- A step leaves the contents alone, or is one operation of the queue. -/
def Simulates (ring next : RingBuffer T capacity) : Prop :=
  (next.history = ring.history ∧ next.unread = ring.unread) ∨
    ∃ operation, ring.TakesEffect operation ∧ next.history = ring.history ++ [operation] ∧
      Step capacity.value ring.unread operation next.unread

theorem Consistent.unread_eq (consistent : Consistent ring) (after : Consistent next)
    (history : next.history = ring.history) : next.unread = ring.unread :=
  after.run.unique (history ▸ consistent.run)

theorem Consistent.operation (consistent : Consistent ring) (after : Consistent next)
    {operation : BoundedQueue.Operation T} (history : next.history = ring.history ++ [operation]) :
    Step capacity.value ring.unread operation next.unread :=
  consistent.run.last (history ▸ after.run)

theorem Consistent.step (consistent : Consistent ring) {movedFrom : T → T} {event : Event T}
    (stepped : step movedFrom ring event = some next) : Consistent next := by
  cases event with
  | emplace item => exact consistent.emplace stepped
  | push item => exact consistent.emplace stepped
  | producer =>
      obtain ⟨⟨after, result⟩, called, rfl⟩ := Option.map_eq_some_iff.mp stepped
      exact consistent.stepProducer called
  | pop => exact consistent.pop stepped
  | consumer =>
      obtain ⟨⟨after, result⟩, called, rfl⟩ := Option.map_eq_some_iff.mp stepped
      exact consistent.stepConsumer called

theorem step_effect {movedFrom : T → T} {event : Event T}
    (stepped : step movedFrom ring event = some next) :
    next.history = ring.history ∨
      ∃ operation, ring.TakesEffect operation ∧ next.history = ring.history ++ [operation] := by
  have called : ∀ item, ring.emplace item = some next → next.history = ring.history := by
    intro item accepted
    obtain ⟨-, rfl⟩ := emplace_eq_some accepted
    rfl
  cases event with
  | emplace item => exact .inl (called item stepped)
  | push item => exact .inl (called item stepped)
  | producer =>
      obtain ⟨⟨after, result⟩, returned, rfl⟩ := Option.map_eq_some_iff.mp stepped
      cases stepProducer_effect returned with
      | silent history | full at_ history => exact .inl history
      | refuse at_ history => exact .inr ⟨.refuse _, ⟨_, at_⟩, history⟩
      | push at_ history => exact .inr ⟨.push _, ⟨_, at_⟩, history⟩
  | pop =>
      obtain ⟨-, rfl⟩ := pop_eq_some stepped
      exact .inl rfl
  | consumer =>
      obtain ⟨⟨after, result⟩, returned, rfl⟩ := Option.map_eq_some_iff.mp stepped
      cases stepConsumer_effect returned with
      | silent history | nothing at_ history => exact .inl history
      | miss at_ history => exact .inr ⟨.miss, ⟨_, at_⟩, history⟩
      | pop at_ history => exact .inr ⟨.pop _, ⟨_, at_⟩, history⟩

theorem Consistent.simulates (consistent : Consistent ring) {movedFrom : T → T}
    {event : Event T} (stepped : RingBuffer.step movedFrom ring event = some next) :
    Simulates ring next := by
  have after := consistent.step stepped
  cases step_effect stepped with
  | inl history => exact .inl ⟨history, consistent.unread_eq after history⟩
  | inr logged =>
      obtain ⟨operation, effect, history⟩ := logged
      exact .inr ⟨operation, effect, history, consistent.operation after history⟩

/-- The elements of the calls of the producer that returned true. -/
def accepted (ring : RingBuffer T capacity) : List T :=
  ring.returned.filterMap fun (item, added) => if added then some item else none

/-- The elements the calls of the consumer returned. -/
def delivered (ring : RingBuffer T capacity) : List T :=
  ring.taken.filterMap id

/-- The ring buffer is a bounded queue. -/
structure RefinesQueue (ring : RingBuffer T capacity) : Prop where
  /-- Every operation was one of the queue. -/
  legal : Run capacity.value ring.history ring.unread
  /-- The calls have returned the results of these operations, but for those
  still under way. -/
  returned : ring.history.filterMap returnedBy = ring.returned ++ ring.pendingReturn
  taken : ring.history.filterMap takenBy = ring.taken ++ ring.pendingTake
  fifo : ring.delivered <+: ring.accepted
  read_le : ring.readCursor ≤ ring.writeCursor
  write_le : ring.writeCursor - ring.readCursor ≤ capacity.value
  /-- A slot is written only when it belongs to no unread element. -/
  writesFree : ∀ item seq, ring.producer = .access item seq →
    ∀ other, ring.readCursor ≤ other → other < ring.writeCursor →
      capacity.slot other ≠ capacity.slot seq
  /-- A slot is read only when it holds an element that has been published. -/
  readsPublished : ∀ seq, ring.consumer = .access seq →
    seq < ring.writeCursor ∧ (pushed ring.history)[seq]? = some (ring.read seq)

/-- A call that returned false was refused. -/
theorem Consistent.refused (consistent : Consistent ring) {item : T}
    (returned : (item, false) ∈ ring.returned) : .refuse item ∈ ring.history := by
  have logged : (item, false) ∈ ring.history.filterMap returnedBy := by
    rw [consistent.returned]
    exact List.mem_append_left _ returned
  obtain ⟨operation, member, result⟩ := List.mem_filterMap.mp logged
  cases operation <;> cases result
  exact member

theorem Consistent.accepted_eq (consistent : Consistent ring) :
    ring.accepted = pushed ring.history := by
  have pending : ring.pendingReturn.filterMap
      (fun (item, added) => if added then some item else none) = [] := by
    rw [pendingReturn]
    split
    next => split <;> rfl
    next => rfl
  have results := congrArg (List.filterMap fun (item, added) => if added then some item else none)
    consistent.returned
  rw [List.filterMap_append, pending, List.append_nil, List.filterMap_filterMap] at results
  rw [accepted, ← results, pushed]
  congr 1
  funext operation
  cases operation <;> rfl

theorem Consistent.delivered_eq (consistent : Consistent ring) :
    ring.delivered = popped ring.history := by
  have pending : ring.pendingTake.filterMap id = [] := by
    rw [pendingTake]
    split
    next => split <;> rfl
    next => rfl
  have results := congrArg (List.filterMap id) consistent.taken
  rw [List.filterMap_append, pending, List.append_nil, List.filterMap_filterMap] at results
  rw [delivered, ← results, popped]
  congr 1
  funext operation
  cases operation <;> rfl

theorem Consistent.refinesQueue (consistent : Consistent ring) : RefinesQueue ring where
  legal := consistent.run
  returned := consistent.returned
  taken := consistent.taken
  fifo := by
    rw [consistent.accepted_eq, consistent.delivered_eq]
    exact consistent.run.popped_prefix
  read_le := consistent.read_le
  write_le := by
    have write_le := consistent.write_le
    omega
  writesFree := by
    intro item seq at_ other read_le lt same
    obtain ⟨atCursor, near⟩ := consistent.writeSlot at_
    have collide := capacity.slot_injective (by omega : other ≤ seq) (by omega) same
    omega
  readsPublished := by
    intro seq at_
    exact (consistent.readSlot at_).2

/-- Under every interleaving of its two threads the ring buffer refines a
bounded first-in first-out queue, step by step. -/
theorem ringBuffer_refinesQueue (movedFrom : T → T) (buffer : Vector T capacity.value)
    (events : List (Event T)) (run : runFrom (step movedFrom) (empty buffer) events = some ring) :
    RefinesQueue ring ∧
      ∀ event next, step movedFrom ring event = some next → Simulates ring next := by
  have consistent : Consistent ring := by
    apply invariant_of_run _ run (empty_consistent buffer)
    intro state after event before stepped
    exact before.step stepped
  exact ⟨consistent.refinesQueue, fun _ _ stepped => consistent.simulates stepped⟩

/-- Two elements fill a queue of two; the third is refused, the first is taken
and the third then fits. -/
theorem ringBuffer_refinesQueue_two :
    ∃ ring : RingBuffer Nat ⟨2, by decide, by decide⟩,
      ring.returned = [(7, true), (8, true), (9, false), (9, true)] ∧ ring.taken = [some 7] ∧
        RefinesQueue ring :=
  ⟨_, rfl, rfl,
    (ringBuffer_refinesQueue id ⟨#[0, 0], rfl⟩
      [.emplace 7, .producer, .producer, .producer,
        .push 8, .producer, .pop, .producer, .producer,
        .emplace 9, .consumer, .consumer, .producer, .consumer, .producer, .producer,
        .consumer, .emplace 9, .consumer, .producer, .producer, .producer, .producer, .producer]
      rfl).1⟩

end RingBuffer

end Pools

end ExchangeConnectivity
