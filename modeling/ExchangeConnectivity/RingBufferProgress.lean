import ExchangeConnectivity.RingBufferRefinement

/-!
# Calls of the ring buffer go on

A call returns after at most five steps of its own, whatever the other thread
does in between, and a call of `pop` fails only if the queue is empty when it
reads the cursor of the producer.
-/

namespace ExchangeConnectivity

open BoundedQueue

namespace Pools

/-- The most steps until a call returns, with the call itself. -/
def Producer.work {T : Type*} : Producer T → Nat
  | .idle => 6
  | .compare _ _ => 5
  | .refresh _ _ => 4
  | .recheck _ _ => 3
  | .access _ _ => 2
  | .publish _ _ => 1

def Consumer.work {T : Type*} : Consumer T → Nat
  | .idle => 6
  | .compare _ => 5
  | .refresh _ => 4
  | .recheck _ => 3
  | .access _ => 2
  | .publish _ _ => 1

theorem Producer.work_le {T : Type*} (producer : Producer T) : producer.work ≤ 6 := by
  cases producer <;> simp [work]

theorem Consumer.work_le {T : Type*} (consumer : Consumer T) : consumer.work ≤ 6 := by
  cases consumer <;> simp [work]

namespace RingBuffer

variable {T : Type*} {capacity : Capacity} {ring next : RingBuffer T capacity}

theorem stepConsumer_ne_none (movedFrom : T → T) (busy : ring.consumer ≠ .idle) :
    ring.stepConsumer movedFrom ≠ none := by
  rw [RingBuffer.stepConsumer]
  cases at_ : ring.consumer with
  | idle => exact absurd at_ busy
  | compare seq | recheck seq =>
      simp only
      split <;> exact Option.some_ne_none _
  | refresh seq | access seq | publish item seq => exact Option.some_ne_none _

theorem stepProducer_ne_none (busy : ring.producer ≠ .idle) : ring.stepProducer ≠ none := by
  rw [RingBuffer.stepProducer]
  cases at_ : ring.producer with
  | idle => exact absurd at_ busy
  | compare item seq | recheck item seq =>
      simp only
      split <;> exact Option.some_ne_none _
  | refresh item seq | access item seq | publish item seq => exact Option.some_ne_none _

theorem stepConsumer_work {movedFrom : T → T}
    (stepped : ring.stepConsumer movedFrom = some (next, none)) :
    next.consumer.work < ring.consumer.work := by
  cases stepConsumer_cases stepped with
  | seesEmpty at_ | seesItem at_ | miss at_ | refresh at_ | item at_ | read at_ =>
      simp [at_, Consumer.work, log]

theorem stepProducer_work (stepped : ring.stepProducer = some (next, none)) :
    next.producer.work < ring.producer.work := by
  cases stepProducer_cases stepped with
  | seesFull at_ | seesRoom at_ | refuse at_ | refresh at_ | room at_ | write at_ =>
      simp [at_, Producer.work, log]

theorem pendingTake_recheck {seq : Nat} (at_ : ring.consumer = .recheck seq) :
    ring.pendingTake = [] ↔ ¬ ring.SeesEmpty seq := by
  simp only [pendingTake, at_]
  split
  next nothing => exact iff_of_false (List.cons_ne_nil _ _) (not_not_intro nothing)
  next some_ => exact iff_of_true rfl some_

/-- A call of `pop` is bound to fail from the moment it finds the queue empty
when it refreshes its copy. -/
theorem Consistent.pendingTake_iff (consistent : Consistent ring) {movedFrom : T → T}
    {result : Option (Option T)}
    (stepped : ring.stepConsumer movedFrom = some (next, result)) :
    next.pendingTake = [] ↔ ((∃ seq, ring.consumer = .refresh seq) → 0 < ring.unread.length) := by
  have ready := consistent.consumer
  have length := consistent.unread_length
  rw [ConsumerReady] at ready
  cases stepConsumer_cases stepped with
  | @miss seq at_ empty =>
      rw [at_] at ready
      have position : seq = ring.readCursor := ready
      apply iff_of_false
      · exact fun notYet => (pendingTake_recheck rfl).mp notYet empty
      · intro nonempty
        have positive := nonempty ⟨seq, at_⟩
        omega
  | @refresh seq at_ some_ =>
      rw [at_] at ready
      have position : seq = ring.readCursor := ready
      apply iff_of_true
      · exact (pendingTake_recheck rfl).mpr some_
      · intro _
        omega
  | seesEmpty at_ | seesItem at_ | empty at_ | item at_ | read at_ | publish at_ =>
      rw [at_]
      apply iff_of_true rfl
      rintro ⟨_, ⟨⟩⟩

/-- A call of `pop` that has not failed does not return nothing. -/
theorem stepConsumer_ne_nothing {movedFrom : T → T} {result : Option (Option T)}
    (notFailed : ring.pendingTake = [])
    (stepped : ring.stepConsumer movedFrom = some (next, result)) : result ≠ some none := by
  cases stepConsumer_cases stepped with
  | empty at_ empty => exact absurd empty ((pendingTake_recheck at_).mp notFailed)
  | seesEmpty | seesItem | miss | refresh | item | read | publish => nofun

theorem stepProducer_pendingTake {result : Option Bool}
    (stepped : ring.stepProducer = some (next, result)) :
    next.pendingTake = ring.pendingTake := by
  cases stepProducer_cases stepped <;> rfl

end RingBuffer

end Pools

end ExchangeConnectivity
