import ExchangeConnectivity.ActionRuns
import ExchangeConnectivity.RingBuffer

/-!
# The invariant of the ring buffer

The slots between the two cursors hold the elements published, in their order,
and each thread may rely on what its stale copy of the other's cursor still
guarantees.  Every step of either thread preserves this.
-/

namespace ExchangeConnectivity

open ActionRuns BoundedQueue

namespace Pools

namespace RingBuffer

variable {T : Type*} {capacity : Capacity}

/-- The result of an operation of the producer. -/
def returnedBy : BoundedQueue.Operation T → Option (T × Bool)
  | .push item => some (item, true)
  | .refuse item => some (item, false)
  | _ => none

/-- The result of an operation of the consumer. -/
def takenBy : BoundedQueue.Operation T → Option (Option T)
  | .pop item => some (some item)
  | .miss => some none
  | _ => none

/-- The result of a call that has taken effect and not returned. -/
def pendingReturn (ring : RingBuffer T capacity) : List (T × Bool) :=
  match ring.producer with
  | .recheck item seq => if ring.SeesFull seq then [(item, false)] else []
  | _ => []

def pendingTake (ring : RingBuffer T capacity) : List (Option T) :=
  match ring.consumer with
  | .recheck seq => if ring.SeesEmpty seq then [none] else []
  | _ => []

/-- What the producer may rely on where it stands. -/
def ProducerReady (ring : RingBuffer T capacity) : Prop :=
  match ring.producer with
  | .idle => True
  | .compare _ seq | .refresh _ seq | .recheck _ seq => seq = ring.writeCursor
  | .access _ seq => seq = ring.writeCursor ∧ seq < ring.cachedReadCursor + capacity.value
  | .publish item seq =>
      seq = ring.writeCursor ∧ seq < ring.cachedReadCursor + capacity.value ∧
        ring.read seq = item

/-- What the consumer may rely on. -/
def ConsumerReady (ring : RingBuffer T capacity) : Prop :=
  match ring.consumer with
  | .idle => True
  | .compare seq | .refresh seq | .recheck seq => seq = ring.readCursor
  | .access seq => seq = ring.readCursor ∧ seq < ring.cachedWriteCursor
  | .publish item seq =>
      seq = ring.readCursor ∧ seq < ring.cachedWriteCursor ∧
        (pushed ring.history)[seq]? = some item

/-- The consumer has moved the element at its cursor out of its slot. -/
def MovedOut (ring : RingBuffer T capacity) (seq : Nat) : Prop :=
  ∃ item, ring.consumer = .publish item seq

structure Consistent (ring : RingBuffer T capacity) : Prop where
  run : Run capacity.value ring.history ring.unread
  written : (pushed ring.history).length = ring.writeCursor
  read_le : ring.readCursor ≤ ring.writeCursor
  cachedRead_le : ring.cachedReadCursor ≤ ring.readCursor
  cachedWrite_le : ring.cachedWriteCursor ≤ ring.writeCursor
  slots : ∀ seq item, ring.readCursor ≤ seq → (pushed ring.history)[seq]? = some item →
    ¬ ring.MovedOut seq → ring.read seq = item
  producer : ring.ProducerReady
  consumer : ring.ConsumerReady
  returned : ring.history.filterMap returnedBy = ring.returned ++ ring.pendingReturn
  taken : ring.history.filterMap takenBy = ring.taken ++ ring.pendingTake

theorem empty_consistent (buffer : Vector T capacity.value) : Consistent (empty buffer) where
  run := .nil
  written := rfl
  read_le := Nat.le_refl 0
  cachedRead_le := Nat.le_refl 0
  cachedWrite_le := Nat.le_refl 0
  slots := by
    intro seq item _ found
    cases found
  producer := trivial
  consumer := trivial
  returned := rfl
  taken := rfl

section Consistent

variable {ring next : RingBuffer T capacity}

theorem Consistent.unread_length (consistent : Consistent ring) :
    ring.unread.length = ring.writeCursor - ring.readCursor := by
  rw [unread, List.length_drop, consistent.written]

/-- No more than a capacity of elements is between the cursors. -/
theorem Consistent.write_le (consistent : Consistent ring) :
    ring.writeCursor ≤ ring.readCursor + capacity.value := by
  have bounded := consistent.run.length_le
  rw [consistent.unread_length] at bounded
  omega

theorem entry_write (ring : RingBuffer T capacity) (position seq : Nat) (item : T) :
    entry (ring.write position item) seq =
      if capacity.slot position = capacity.slot seq then item else ring.read seq := by
  simp only [entry, write, read, Vector.getElem_set]

theorem entry_write_same (ring : RingBuffer T capacity) (seq : Nat) (item : T) :
    entry (ring.write seq item) seq = item := by
  rw [entry_write, if_pos rfl]

/-- A write leaves the slots of other cursors nearby alone. -/
theorem entry_write_of_lt (ring : RingBuffer T capacity) {first second : Nat}
    (lt : first < second) (near : second < first + capacity.value) (item : T) :
    entry (ring.write second item) first = ring.read first ∧
      entry (ring.write first item) second = ring.read second := by
  have different : capacity.slot first ≠ capacity.slot second :=
    fun same => Nat.ne_of_lt lt (capacity.slot_injective (Nat.le_of_lt lt) near same)
  rw [entry_write, entry_write, if_neg different, if_neg (Ne.symm different)]
  exact ⟨rfl, rfl⟩

theorem Consistent.emplace (consistent : Consistent ring) {item : T}
    (called : ring.emplace item = some next) : Consistent next := by
  obtain ⟨idle, rfl⟩ := emplace_eq_some called
  have returned := consistent.returned
  rw [pendingReturn, idle] at returned
  exact { consistent with producer := rfl, returned }

/-- A published element is released only after it was written. -/
theorem Consistent.lt_writeCursor (consistent : Consistent ring) {seq : Nat} {item : T}
    (found : (pushed ring.history)[seq]? = some item) : seq < ring.writeCursor := by
  obtain ⟨bound, -⟩ := List.getElem?_eq_some_iff.mp found
  rwa [consistent.written] at bound

/-- A copy of the read cursor that shows room is no more than a capacity behind. -/
theorem Consistent.near_of_room (consistent : Consistent ring) {seq : Nat}
    (atCursor : seq = ring.writeCursor) (room : ¬ ring.SeesFull seq) :
    seq = ring.writeCursor ∧ seq < ring.cachedReadCursor + capacity.value := by
  have cachedRead_le := consistent.cachedRead_le
  have read_le := consistent.read_le
  rw [SeesFull] at room
  omega

/-- The slot at the write cursor belongs to no element between the cursors. -/
theorem Consistent.writeSlot (consistent : Consistent ring) {item : T} {seq : Nat}
    (at_ : ring.producer = .access item seq) :
    seq = ring.writeCursor ∧ seq < ring.readCursor + capacity.value := by
  have ready := consistent.producer
  rw [ProducerReady, at_] at ready
  have cachedRead_le := consistent.cachedRead_le
  obtain ⟨atCursor, room⟩ := ready
  exact ⟨atCursor, by omega⟩

/-- A refreshed copy that still sees a full queue sees it as it is. -/
theorem Consistent.unread_length_of_full (consistent : Consistent ring)
    (full : capacity.value ≤ ring.writeCursor - ring.readCursor) :
    ring.unread.length = capacity.value := by
  have write_le := consistent.write_le
  rw [consistent.unread_length]
  omega

theorem unread_log {operation : BoundedQueue.Operation T} (pushes : pushed [operation] = []) :
    (ring.log operation).unread = ring.unread := by
  rw [unread, log, pushed_append, pushes, List.append_nil, unread]

/-- More elements published do not disturb the consumer. -/
theorem ConsumerReady.of_published (ready : ring.ConsumerReady) {more : List T}
    (consumer : next.consumer = ring.consumer) (readCursor : next.readCursor = ring.readCursor)
    (cached : next.cachedWriteCursor = ring.cachedWriteCursor)
    (published : pushed next.history = pushed ring.history ++ more) : next.ConsumerReady := by
  rw [ConsumerReady] at ready ⊢
  rw [consumer, readCursor, cached]
  cases at_ : ring.consumer with
  | publish item seq =>
      simp only [at_] at ready
      obtain ⟨atCursor, lt, found⟩ := ready
      obtain ⟨bound, -⟩ := List.getElem?_eq_some_iff.mp found
      refine ⟨atCursor, lt, ?_⟩
      rw [published, List.getElem?_append_left bound, found]
  | _ => simp only [at_] at ready ⊢ <;> exact ready

/-- The producer finds the queue full when it refreshes its copy. -/
theorem Consistent.refuse (consistent : Consistent ring) {item : T} {seq : Nat}
    (at_ : ring.producer = .refresh item seq)
    (full : capacity.value ≤ seq - ring.readCursor) :
    Consistent
      (log { ring with
        cachedReadCursor := ring.readCursor
        producer := .recheck item seq } (.refuse item)) := by
  have ready := consistent.producer
  have returned := consistent.returned
  rw [ProducerReady, at_] at ready
  rw [pendingReturn, at_, List.append_nil] at returned
  subst ready
  have samePushed : pushed (ring.history ++ [.refuse item]) = pushed ring.history := by
    rw [pushed_append, pushed_refuse, List.append_nil]
  constructor
  case run =>
    rw [unread_log rfl]
    exact consistent.run.snoc (.refuse (consistent.unread_length_of_full full))
  case written => exact (congrArg List.length samePushed).trans consistent.written
  case slots =>
    intro other published read_le found
    rw [log, samePushed] at found
    exact consistent.slots other published read_le found
  case consumer =>
    exact consistent.consumer.of_published rfl rfl rfl (samePushed.trans (List.append_nil _).symm)
  case returned =>
    rw [log, pendingReturn, List.filterMap_append, returned]
    exact congrArg _ (if_pos full).symm
  case taken =>
    rw [log, List.filterMap_append, consistent.taken]
    exact List.append_nil _
  case producer => exact rfl
  all_goals
    first
    | exact consistent.read_le
    | exact Nat.le_refl _
    | exact consistent.cachedWrite_le

/-- The producer writes its element. -/
theorem Consistent.write (consistent : Consistent ring) {item : T} {seq : Nat}
    (at_ : ring.producer = .access item seq) :
    Consistent
      { ring with buffer := ring.write seq item, producer := .publish item seq } := by
  have ready := consistent.producer
  have returned := consistent.returned
  rw [ProducerReady, at_] at ready
  rw [pendingReturn, at_] at returned
  obtain ⟨atCursor, near⟩ := consistent.writeSlot at_
  refine
    { consistent with
      slots := ?_
      producer := ⟨ready.1, ready.2, entry_write_same ring seq item⟩
      returned }
  intro other published (read_le : ring.readCursor ≤ other) found kept
  have before := consistent.lt_writeCursor found
  exact (ring.entry_write_of_lt (by omega : other < seq) (by omega) item).1.trans
    (consistent.slots other published read_le found kept)

/-- The producer publishes its element. -/
theorem Consistent.push (consistent : Consistent ring) {item : T} {seq : Nat}
    (at_ : ring.producer = .publish item seq) :
    Consistent
      (log { ring with
        writeCursor := seq + 1
        producer := .idle
        returned := ring.returned ++ [(item, true)] } (.push item)) := by
  have ready := consistent.producer
  have returned := consistent.returned
  have read_le := consistent.read_le
  have cachedRead_le := consistent.cachedRead_le
  rw [ProducerReady, at_] at ready
  rw [pendingReturn, at_, List.append_nil] at returned
  obtain ⟨rfl, near, stored⟩ := ready
  have nowPushed : pushed (ring.history ++ [.push item]) = pushed ring.history ++ [item] := by
    rw [pushed_append, pushed_push]
  constructor
  case run =>
    rw [unread, log, nowPushed,
      List.drop_append_of_le_length (consistent.written ▸ consistent.read_le)]
    refine consistent.run.snoc (.push ?_)
    rw [consistent.unread_length]
    omega
  case written =>
    rw [log, nowPushed, List.length_append, consistent.written]
    rfl
  case slots =>
    intro other published read_le found kept
    rw [log, nowPushed] at found
    by_cases old : other < ring.writeCursor
    · rw [List.getElem?_append_left (by rwa [consistent.written])] at found
      exact consistent.slots other published read_le found kept
    · have last : other = ring.writeCursor := by
        obtain ⟨bound, -⟩ := List.getElem?_eq_some_iff.mp found
        rw [List.length_append, consistent.written, List.length_singleton] at bound
        omega
      subst last
      rw [← consistent.written, List.getElem?_concat_length, Option.some_inj] at found
      rw [← found]
      exact stored
  case consumer => exact consistent.consumer.of_published rfl rfl rfl nowPushed
  case returned =>
    rw [log, List.filterMap_append, returned]
    exact (List.append_nil _).symm
  case taken =>
    rw [log, List.filterMap_append, consistent.taken]
    exact List.append_nil _
  case producer => trivial
  case read_le => exact Nat.le_succ_of_le consistent.read_le
  case cachedRead_le => exact consistent.cachedRead_le
  case cachedWrite_le => exact Nat.le_succ_of_le consistent.cachedWrite_le

theorem Consistent.stepProducer (consistent : Consistent ring) {result : Option Bool}
    (stepped : ring.stepProducer = some (next, result)) : Consistent next := by
  have ready := consistent.producer
  have returned := consistent.returned
  rw [ProducerReady] at ready
  rw [pendingReturn] at returned
  cases stepProducer_cases stepped with
  | seesFull at_ =>
      rw [at_] at ready returned
      exact { consistent with producer := ready, returned }
  | seesRoom at_ room =>
      rw [at_] at ready returned
      exact { consistent with producer := consistent.near_of_room ready room, returned }
  | refuse at_ full => exact consistent.refuse at_ full
  | refresh at_ room =>
      rw [at_] at ready returned
      rw [List.append_nil] at returned
      refine { consistent with cachedRead_le := Nat.le_refl _, producer := ready, returned := ?_ }
      exact returned.trans ((congrArg _ (if_neg room)).trans (List.append_nil _)).symm
  | full at_ full =>
      simp only [at_, if_pos full] at returned
      exact { consistent with
        producer := trivial
        returned := returned.trans (List.append_nil _).symm }
  | room at_ room =>
      rw [at_] at ready
      simp only [at_, if_neg room] at returned
      exact { consistent with producer := consistent.near_of_room ready room, returned }
  | write at_ => exact consistent.write at_
  | publish at_ => exact consistent.push at_

/-- Every element between the cursors is in its slot while the consumer has not
taken one out. -/
theorem Consistent.stored (consistent : Consistent ring)
    (inPlace : ∀ item seq, ring.consumer ≠ .publish item seq) {moved : Nat → Prop} :
    ∀ seq item, ring.readCursor ≤ seq → (pushed ring.history)[seq]? = some item →
      ¬ moved seq → ring.read seq = item := by
  intro seq item read_le found _
  exact consistent.slots seq item read_le found fun ⟨_, movedOut⟩ => inPlace _ _ movedOut

/-- The consumer accesses the slot of the oldest unread element. -/
theorem Consistent.readSlot (consistent : Consistent ring) {seq : Nat}
    (at_ : ring.consumer = .access seq) :
    seq = ring.readCursor ∧ seq < ring.writeCursor ∧
      (pushed ring.history)[seq]? = some (ring.read seq) := by
  have ready := consistent.consumer
  have cachedWrite_le := consistent.cachedWrite_le
  rw [ConsumerReady, at_] at ready
  obtain ⟨atCursor, lt⟩ := ready
  have bound : seq < (pushed ring.history).length := by
    rw [consistent.written]
    omega
  have found := List.getElem?_eq_getElem bound
  have inPlace : ¬ ring.MovedOut seq := by
    rintro ⟨item, moved⟩
    rw [at_] at moved
    cases moved
  have stored := consistent.slots seq _ (Nat.le_of_eq atCursor.symm) found inPlace
  exact ⟨atCursor, by omega, found.trans (congrArg some stored.symm)⟩

theorem Consistent.pop (consistent : Consistent ring) (called : ring.pop = some next) :
    Consistent next := by
  obtain ⟨idle, rfl⟩ := pop_eq_some called
  have taken := consistent.taken
  rw [pendingTake, idle] at taken
  exact { consistent with
    slots := consistent.stored (by rw [idle]; nofun)
    consumer := rfl
    taken }

/-- The consumer finds the queue empty when it refreshes its copy. -/
theorem Consistent.miss (consistent : Consistent ring) {seq : Nat}
    (at_ : ring.consumer = .refresh seq) (nothing : ring.writeCursor ≤ seq) :
    Consistent
      (log { ring with
        cachedWriteCursor := ring.writeCursor
        consumer := .recheck seq } .miss) := by
  have ready := consistent.consumer
  have taken := consistent.taken
  rw [ConsumerReady, at_] at ready
  rw [pendingTake, at_, List.append_nil] at taken
  subst ready
  have samePushed : pushed (ring.history ++ [.miss]) = pushed ring.history := by
    rw [pushed_append, pushed_miss, List.append_nil]
  have drained : ring.unread = [] := by
    rw [← List.length_eq_zero_iff, consistent.unread_length]
    omega
  constructor
  case run =>
    rw [unread_log rfl]
    have run := consistent.run
    rw [drained] at run
    exact drained.symm ▸ run.snoc .miss
  case written => exact (congrArg List.length samePushed).trans consistent.written
  case slots =>
    rw [log, samePushed]
    exact consistent.stored (by rw [at_]; nofun)
  case consumer => exact rfl
  case producer => exact consistent.producer
  case returned =>
    rw [log, List.filterMap_append, consistent.returned]
    exact List.append_nil _
  case taken =>
    rw [log, List.filterMap_append, taken]
    exact congrArg _ (if_pos nothing).symm
  all_goals
    first
    | exact consistent.read_le
    | exact consistent.cachedRead_le
    | exact Nat.le_refl _

/-- The consumer moves the oldest unread element out of its slot. -/
theorem Consistent.moveOut (consistent : Consistent ring) (movedFrom : T → T) {seq : Nat}
    (at_ : ring.consumer = .access seq) :
    Consistent
      { ring with
        buffer := ring.write seq (movedFrom (ring.read seq))
        consumer := .publish (ring.read seq) seq } := by
  obtain ⟨atCursor, lt, found⟩ := consistent.readSlot at_
  have ready := consistent.consumer
  have taken := consistent.taken
  have write_le := consistent.write_le
  rw [ConsumerReady, at_] at ready
  rw [pendingTake, at_] at taken
  refine { consistent with
    slots := ?slots
    producer := ?producer
    consumer := ⟨ready.1, ready.2, found⟩
    taken }
  case slots =>
    intro other published (read_le : ring.readCursor ≤ other) foundOther kept
    have before := consistent.lt_writeCursor foundOther
    have different : other ≠ seq := by
      rintro rfl
      exact kept ⟨_, rfl⟩
    exact (ring.entry_write_of_lt (by omega : seq < other) (by omega) _).2.trans
      (consistent.stored (by rw [at_]; nofun) other published read_le foundOther kept)
  case producer =>
    have producer := consistent.producer
    have cachedRead_le := consistent.cachedRead_le
    rw [ProducerReady] at producer ⊢
    cases atProducer : ring.producer with
    | publish item next =>
        simp only [atProducer] at producer ⊢
        obtain ⟨atWrite, near, stored⟩ := producer
        exact ⟨atWrite, near,
          (ring.entry_write_of_lt (by omega : seq < next) (by omega) _).2.trans stored⟩
    | _ => simp only [atProducer] at producer ⊢ <;> exact producer

/-- The consumer releases the slot. -/
theorem Consistent.release (consistent : Consistent ring) {item : T} {seq : Nat}
    (at_ : ring.consumer = .publish item seq) :
    Consistent
      (log { ring with
        readCursor := seq + 1
        consumer := .idle
        taken := ring.taken ++ [some item] } (.pop item)) := by
  have ready := consistent.consumer
  have taken := consistent.taken
  have cachedRead_le := consistent.cachedRead_le
  have cachedWrite_le := consistent.cachedWrite_le
  rw [ConsumerReady, at_] at ready
  rw [pendingTake, at_, List.append_nil] at taken
  obtain ⟨rfl, lt, found⟩ := ready
  have samePushed : pushed (ring.history ++ [.pop item]) = pushed ring.history := by
    rw [pushed_append, pushed_pop, List.append_nil]
  have front : ring.unread = item :: (pushed ring.history).drop (ring.readCursor + 1) := by
    obtain ⟨bound, oldest⟩ := List.getElem?_eq_some_iff.mp found
    rw [unread, List.drop_eq_getElem_cons bound, oldest]
  constructor
  case run =>
    have run := consistent.run
    rw [front] at run
    rw [unread_log rfl]
    exact run.snoc .pop
  case written => exact (congrArg List.length samePushed).trans consistent.written
  case slots =>
    intro other published (read_le : ring.readCursor + 1 ≤ other) foundOther _
    rw [log, samePushed] at foundOther
    refine consistent.slots other published (by omega) foundOther ?_
    rintro ⟨moved, atOther⟩
    rw [at_] at atOther
    cases atOther
    omega
  case consumer => trivial
  case producer => exact consistent.producer
  case returned =>
    rw [log, List.filterMap_append, consistent.returned]
    exact List.append_nil _
  case taken =>
    rw [log, List.filterMap_append, taken]
    exact (List.append_nil _).symm
  case read_le => exact Nat.le_trans lt cachedWrite_le
  case cachedRead_le => exact Nat.le_succ_of_le cachedRead_le
  case cachedWrite_le => exact cachedWrite_le

theorem Consistent.stepConsumer (consistent : Consistent ring) {movedFrom : T → T}
    {result : Option (Option T)} (stepped : ring.stepConsumer movedFrom = some (next, result)) :
    Consistent next := by
  have ready := consistent.consumer
  have taken := consistent.taken
  rw [ConsumerReady] at ready
  rw [pendingTake] at taken
  cases stepConsumer_cases stepped with
  | seesEmpty at_ =>
      rw [at_] at ready taken
      exact { consistent with
        slots := consistent.stored (by rw [at_]; nofun)
        consumer := ready
        taken }
  | seesItem at_ some_ =>
      rw [at_] at ready taken
      exact { consistent with
        slots := consistent.stored (by rw [at_]; nofun)
        consumer := ⟨ready, Nat.lt_of_not_le some_⟩
        taken }
  | miss at_ empty => exact consistent.miss at_ empty
  | refresh at_ some_ =>
      rw [at_] at ready taken
      rw [List.append_nil] at taken
      exact { consistent with
        cachedWrite_le := Nat.le_refl _
        slots := consistent.stored (by rw [at_]; nofun)
        consumer := ready
        taken := taken.trans ((congrArg _ (if_neg some_)).trans (List.append_nil _)).symm }
  | empty at_ empty =>
      simp only [at_, if_pos empty] at taken
      exact { consistent with
        slots := consistent.stored (by rw [at_]; nofun)
        consumer := trivial
        taken := taken.trans (List.append_nil _).symm }
  | item at_ some_ =>
      rw [at_] at ready
      simp only [at_, if_neg some_] at taken
      exact { consistent with
        slots := consistent.stored (by rw [at_]; nofun)
        consumer := ⟨ready, Nat.lt_of_not_le some_⟩
        taken }
  | read at_ => exact consistent.moveOut movedFrom at_
  | publish at_ => exact consistent.release at_

end Consistent

end RingBuffer

end Pools

end ExchangeConnectivity
