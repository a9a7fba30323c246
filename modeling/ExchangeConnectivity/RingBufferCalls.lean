import ExchangeConnectivity.RingBufferRefinement

/-!
# Calls of the ring buffer without interleaving

A call that no step of the other thread interrupts returns after at most five
steps, with the result the contents of the queue tell.
-/

namespace ExchangeConnectivity

open BoundedQueue

namespace Pools

namespace RingBuffer

variable {T : Type*} {capacity : Capacity} {ring next : RingBuffer T capacity}

theorem Consistent.runProducer (consistent : Consistent ring) {fuel : Nat} {result : Bool}
    (returned : runProducer fuel ring = some (next, result)) : Consistent next := by
  induction fuel generalizing ring with
  | zero => cases returned
  | succ fuel ih =>
      rw [RingBuffer.runProducer] at returned
      split at returned
      next stepped =>
        cases returned
        exact consistent.stepProducer stepped
      next stepped => exact ih (consistent.stepProducer stepped) returned
      next => cases returned

theorem Consistent.emplaceAlone (consistent : Consistent ring) {item : T} {result : Bool}
    (returned : ring.emplaceAlone item = some (next, result)) : Consistent next := by
  obtain ⟨entered, called, returned⟩ := Option.bind_eq_some_iff.mp returned
  exact (consistent.emplace called).runProducer returned

/-- An element is added when there is room for it. -/
theorem Consistent.emplaceAlone_eq (consistent : Consistent ring) (idle : ring.producer = .idle)
    (room : ring.unread.length < capacity.value) (item : T) :
    ∃ next, ring.emplaceAlone item = some (next, true) ∧ next.producer = .idle ∧
      next.consumer = ring.consumer ∧ next.taken = ring.taken ∧
        next.history = ring.history ++ [.push item] := by
  rw [consistent.unread_length] at room
  by_cases full : capacity.value ≤ ring.writeCursor - ring.cachedReadCursor
  · have notFull : ¬ capacity.value ≤ ring.writeCursor - ring.readCursor := Nat.not_le_of_lt room
    simp [RingBuffer.emplaceAlone, RingBuffer.emplace, idle, RingBuffer.runProducer,
      RingBuffer.stepProducer, SeesFull, full, notFull, log]
  · simp [RingBuffer.emplaceAlone, RingBuffer.emplace, idle, RingBuffer.runProducer,
      RingBuffer.stepProducer, SeesFull, full, log]

theorem Consistent.runConsumer (consistent : Consistent ring) {movedFrom : T → T} {fuel : Nat}
    {result : Option T} (returned : runConsumer movedFrom fuel ring = some (next, result)) :
    Consistent next := by
  induction fuel generalizing ring with
  | zero => cases returned
  | succ fuel ih =>
      rw [RingBuffer.runConsumer] at returned
      split at returned
      next stepped =>
        cases returned
        exact consistent.stepConsumer stepped
      next stepped => exact ih (consistent.stepConsumer stepped) returned
      next => cases returned

theorem Consistent.popAlone (consistent : Consistent ring) {movedFrom : T → T}
    {result : Option T} (returned : ring.popAlone movedFrom = some (next, result)) :
    Consistent next := by
  obtain ⟨entered, called, returned⟩ := Option.bind_eq_some_iff.mp returned
  exact (consistent.pop called).runConsumer returned

theorem Consistent.head_unread (consistent : Consistent ring) (idle : ring.consumer = .idle)
    (some_ : ring.readCursor < ring.writeCursor) :
    ring.unread.head? = some (ring.read ring.readCursor) := by
  rw [← consistent.written] at some_
  have found := List.getElem?_eq_getElem some_
  have inPlace : ¬ ring.MovedOut ring.readCursor := by
    rintro ⟨item, moved⟩
    rw [idle] at moved
    cases moved
  rw [unread, List.head?_drop, found,
    consistent.slots ring.readCursor _ (Nat.le_refl _) found inPlace]

theorem tail_unread (ring : RingBuffer T capacity) :
    ring.unread.tail = (pushed ring.history).drop (ring.readCursor + 1) :=
  List.tail_drop

/-- The oldest element is removed, if there is one. -/
theorem Consistent.popAlone_eq (consistent : Consistent ring) (movedFrom : T → T)
    (idle : ring.consumer = .idle) :
    ∃ next, ring.popAlone movedFrom = some (next, ring.unread.head?) ∧ next.consumer = .idle ∧
      next.producer = ring.producer ∧ next.unread = ring.unread.tail := by
  have cachedWrite_le := consistent.cachedWrite_le
  by_cases some_ : ring.readCursor < ring.writeCursor
  · have notEmpty : ¬ ring.writeCursor ≤ ring.readCursor := Nat.not_le_of_lt some_
    rw [consistent.head_unread idle some_, tail_unread]
    by_cases stale : ring.cachedWriteCursor ≤ ring.readCursor
    · simp [RingBuffer.popAlone, RingBuffer.pop, idle, RingBuffer.runConsumer,
        RingBuffer.stepConsumer, SeesEmpty, stale, notEmpty, log, unread, read]
    · simp [RingBuffer.popAlone, RingBuffer.pop, idle, RingBuffer.runConsumer,
        RingBuffer.stepConsumer, SeesEmpty, stale, log, unread, read]
  · have stale : ring.cachedWriteCursor ≤ ring.readCursor := by omega
    have empty : ring.writeCursor ≤ ring.readCursor := by omega
    have drained : (pushed ring.history).length ≤ ring.readCursor := by
      rw [consistent.written]
      exact empty
    have nothing : ring.unread = [] := List.drop_eq_nil_of_le drained
    rw [nothing]
    simp [RingBuffer.popAlone, RingBuffer.pop, idle, RingBuffer.runConsumer,
      RingBuffer.stepConsumer, SeesEmpty, stale, empty, log, unread, drained]

end RingBuffer

end Pools

end ExchangeConnectivity
