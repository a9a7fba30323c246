import ExchangeConnectivity.Leases
import ExchangeConnectivity.Pipelines

/-!
# The loops of the pipelines with a pool

`runPool` and `runScSpPool` of `pools/main.cpp` have the same text but for the
pool.  Their loops, seen through the objects the leases refer to, take the
steps of the pipeline without a pool.
-/

namespace ExchangeConnectivity

namespace Pools

namespace PerfTests

namespace Pooled

inductive Producer
  | starting (sequence : Nat)
  | acquiring (sequence : Nat)
  | producing (sequence : Nat) (lease : Lease)
  | pushing (sequence : Nat) (lease : Lease)
  | finished

/-- Where the consumer loop stands.  `consume` and `release` use a reference to
the object, which is bound to the storage the objects had when it was made. -/
inductive Consumer
  | waiting
  | received (lease : Lease)
  | consuming (lease : Lease) (storage : Nat)
  | releasing (lease : Lease)
  | clearing (lease : Lease) (storage : Nat)
  | inserting (lease : Lease)
  | finished

/-- Where the objects are.  `published` counts the storages that their vector
has left; while it grows, the first `moved` objects are in the next one, and
`operator[]` still gives out references into the old one. -/
structure Storage where
  published : Nat := 0
  moved : Nat := 0

namespace Storage

/-- The storage in which an object lives. -/
def location (storage : Storage) (index : Nat) : Nat :=
  if index < storage.moved then storage.published + 1 else storage.published

/-- The next object is moved. -/
def move (storage : Storage) : Storage :=
  { storage with moved := storage.moved + 1 }

/-- The next storage takes the place of the old one. -/
def publish (storage : Storage) : Storage :=
  { published := storage.published + 1 }

variable {storage : Storage} {index : Nat}

theorem location_eq_published_iff :
    storage.published = storage.location index ↔ storage.moved ≤ index := by
  rw [location]
  split <;> omega

theorem location_move_iff :
    storage.location index = storage.move.location index ↔ index ≠ storage.moved := by
  have moved : storage.move.location index =
      if index < storage.moved + 1 then storage.published + 1 else storage.published := rfl
  rw [moved, location]
  split_ifs <;> omega

/-- When all objects have been moved, they do not move again. -/
theorem location_publish (all : index < storage.moved) :
    storage.location index = storage.publish.location index := by
  rw [location, if_pos all]
  rfl

end Storage

/-- A reference to the object at an index, as it was in some storage. -/
structure Reference where
  index : Nat
  storage : Nat

structure Loops where
  producer : Producer := .starting 1
  queue : Queue Lease := {}
  consumer : Consumer := .waiting
  result : TestResult := {}

/-- What a lease refers to. -/
def contents (objects : List BookUpdate) (lease : Lease) : BookUpdate :=
  objects[lease.index]?.getD {}

/-- The next step of the producer outside of `acquire`; an empty lease is not to
be dereferenced. -/
def Loops.stepProducer (messageCount : Nat) (loops : Loops) (objects : List BookUpdate) :
    Option (Loops × List BookUpdate) :=
  match loops.producer with
  | .starting sequence =>
      if sequence ≤ messageCount then some ({ loops with producer := .acquiring sequence }, objects)
      else some ({ loops with producer := .finished, queue := loops.queue.close }, objects)
  | .producing sequence lease =>
      if lease.pool then
        some
          ({ loops with producer := .pushing sequence lease },
            objects.modify lease.index (produce · (UInt64.ofNat sequence)))
      else none
  | .pushing sequence lease =>
      some
        ({ loops with
            producer := .starting ((sequence + 1) % 2 ^ 64)
            queue := loops.queue.push lease },
          objects)
  | .acquiring _ | .finished => none

/-- The next step of the consumer loop up to the insertion of the index; a
reference is not to be used when its object lives in another storage. -/
def Loops.stepConsumer (storage : Storage) (loops : Loops) (objects : List BookUpdate) :
    Option (Loops × List BookUpdate) :=
  match loops.consumer with
  | .waiting =>
      loops.queue.pop.map fun (queue, value) =>
        match value with
        | none => ({ loops with queue, consumer := .finished }, objects)
        | some lease => ({ loops with queue, consumer := .received lease }, objects)
  | .received lease =>
      if lease.pool then
        some ({ loops with consumer := .consuming lease storage.published }, objects)
      else none
  | .consuming lease reference =>
      if reference = storage.location lease.index then
        some
          ({ loops with
              consumer := .releasing lease
              result := loops.result.count (contents objects lease) },
            objects)
      else none
  | .releasing lease =>
      some ({ loops with consumer := .clearing lease storage.published }, objects)
  | .clearing lease reference =>
      if reference = storage.location lease.index then
        some
          ({ loops with consumer := .inserting lease },
            objects.modify lease.index BookUpdate.clear)
      else none
  | .inserting _ | .finished => none

/-- The producer has got its lease. -/
def Loops.acquired (loops : Loops) (sequence : Nat) (lease : Lease) : Loops :=
  { loops with producer := .producing sequence lease }

/-- The consumer has released its lease. -/
def Loops.released (loops : Loops) : Loops :=
  { loops with consumer := .waiting }

def Producer.lease : Producer → Option Lease
  | .producing _ lease | .pushing _ lease => some lease
  | _ => none

def Consumer.lease : Consumer → Option Lease
  | .received lease | .consuming lease _ | .releasing lease | .clearing lease _
  | .inserting lease => some lease
  | _ => none

/-- The reference that the consumer uses next, if it has one. -/
def Consumer.reference : Consumer → Option Reference
  | .consuming lease storage | .clearing lease storage => some { index := lease.index, storage }
  | _ => none

theorem Consumer.lease_of_reference {consumer : Consumer} {reference : Reference}
    (found : consumer.reference = some reference) :
    ∃ lease, consumer.lease = some lease ∧ lease.index = reference.index := by
  cases consumer with
  | consuming lease storage | clearing lease storage =>
      cases found
      exact ⟨lease, rfl, rfl⟩
  | _ => cases found

/-- The object to which the consumer makes a reference next. -/
def Consumer.binds : Consumer → Option Nat
  | .received lease | .releasing lease => some lease.index
  | _ => none

namespace Loops

/-- The leases on their way, the oldest first. -/
def leases (loops : Loops) : List Lease :=
  loops.consumer.lease.toList ++ loops.queue.items ++ loops.producer.lease.toList

def held (loops : Loops) : List Nat :=
  loops.leases.map Lease.index

end Loops

section View

variable (meaning : Lease → BookUpdate)

def Producer.view : Producer → Baseline.Producer
  | .starting sequence => .starting sequence
  | .acquiring sequence | .producing sequence _ => .producing sequence {}
  | .pushing sequence lease => .pushing sequence (meaning lease)
  | .finished => .finished

def Consumer.view : Consumer → Baseline.Consumer
  | .received lease | .consuming lease _ => .consuming (meaning lease)
  | .waiting | .releasing _ | .clearing _ _ | .inserting _ => .waiting
  | .finished => .finished

/-- The state of the baseline that the loops are in when each lease stands for
an object. -/
def Loops.view (loops : Loops) : Baseline.State where
  producer := loops.producer.view meaning
  queue := loops.queue.map meaning
  consumer := loops.consumer.view meaning
  result := loops.result

end View

section Congruence

variable {meaning other : Lease → BookUpdate}

theorem Producer.view_congr {producer : Producer}
    (same : ∀ lease ∈ producer.lease.toList, meaning lease = other lease) :
    producer.view meaning = producer.view other := by
  cases producer with
  | pushing sequence lease => exact congrArg _ (same lease List.mem_cons_self)
  | _ => rfl

theorem Consumer.view_congr {consumer : Consumer}
    (same : ∀ lease ∈ consumer.lease.toList, meaning lease = other lease) :
    consumer.view meaning = consumer.view other := by
  cases consumer with
  | received lease | consuming lease => exact congrArg _ (same lease List.mem_cons_self)
  | _ => rfl

theorem queue_map_congr {queue : Queue Lease}
    (same : ∀ lease ∈ queue.items, meaning lease = other lease) :
    queue.map meaning = queue.map other := by
  rw [Queue.map, Queue.map, List.map_congr_left same]

theorem Loops.view_congr {loops : Loops}
    (same : ∀ lease ∈ loops.leases, meaning lease = other lease) :
    loops.view meaning = loops.view other := by
  simp only [Loops.leases, List.mem_append] at same
  rw [Loops.view, Loops.view, Producer.view_congr fun lease member => same lease (.inr member),
    Consumer.view_congr fun lease member => same lease (.inl (.inl member)),
    queue_map_congr fun lease member => same lease (.inl (.inr member))]

end Congruence

/-- A step of the loops outside of the operations of the pool.  The baseline
follows it; at most one object is written, which a lease refers to, and no
object whose index is being inserted. -/
structure Advances (messageCount : Nat) (storage : Storage) (loops next : Loops)
    (objects written : List BookUpdate) : Prop where
  follows : Baseline.Follows messageCount (loops.view (contents objects))
    (next.view (contents written))
  leases : next.leases = loops.leases
  writes : written = objects ∨ ∃ lease ∈ loops.leases, ∃ update,
    written = objects.set lease.index update ∧
      ∀ other, loops.consumer = .inserting other → other.index ≠ lease.index
  inserting : ∀ lease, loops.consumer = .inserting lease → next.consumer = .inserting lease
  cleared : ∀ lease, next.consumer = .inserting lease →
    loops.consumer = .inserting lease ∨ written[lease.index]? = some {}
  referenced : ∀ reference, next.consumer.reference = some reference →
    loops.consumer.reference = some reference ∨
      loops.consumer.binds = some reference.index ∧ reference.storage = storage.published

section Steps

variable {messageCount : Nat} {storage : Storage} {loops next : Loops}
  {objects written : List BookUpdate}

theorem contents_set_ne {lease : Lease} {index : Nat} (different : lease.index ≠ index)
    (update : BookUpdate) : contents (objects.set index update) lease = contents objects lease := by
  rw [contents, List.getElem?_set_ne different.symm, contents]

theorem contents_set_self {lease : Lease} (lt : lease.index < objects.length)
    (update : BookUpdate) : contents (objects.set lease.index update) lease = update := by
  rw [contents, List.getElem?_set_self lt]
  rfl

theorem modify_produce (objects : List BookUpdate) (index : Nat) (sequence : UInt64) :
    objects.modify index (produce · sequence) = objects.set index (produce {} sequence) := by
  rw [List.set_eq_modify]
  rfl

theorem modify_clear (objects : List BookUpdate) (index : Nat) :
    objects.modify index BookUpdate.clear = objects.set index {} := by
  rw [List.set_eq_modify]
  rfl

/-- The lease of the producer shares its index with no other. -/
theorem Loops.ne_of_producer {lease : Lease} (nodup : loops.held.Nodup)
    (found : loops.producer.lease = some lease) :
    ∀ other ∈ loops.consumer.lease.toList ++ loops.queue.items, other.index ≠ lease.index := by
  intro other member
  rw [held, leases, found, List.map_append] at nodup
  obtain ⟨-, -, apart⟩ := List.nodup_append.mp nodup
  exact apart _ (List.mem_map_of_mem member) _ List.mem_cons_self

theorem Loops.ne_of_consumer {lease : Lease} (nodup : loops.held.Nodup)
    (found : loops.consumer.lease = some lease) :
    ∀ other ∈ loops.queue.items ++ loops.producer.lease.toList, other.index ≠ lease.index := by
  intro other member
  rw [held, leases, found, List.append_assoc, List.map_append] at nodup
  obtain ⟨-, -, apart⟩ := List.nodup_append.mp nodup
  exact (apart _ List.mem_cons_self _ (List.mem_map_of_mem member)).symm

/-- A step that leaves the objects and the consumer alone. -/
theorem Advances.of_producer
    (follows : Baseline.Follows messageCount (loops.view (contents objects))
      (next.view (contents objects)))
    (leases : next.leases = loops.leases) (consumer : next.consumer = loops.consumer) :
    Advances messageCount storage loops next objects objects where
  follows := follows
  leases := leases
  writes := .inl rfl
  inserting := fun _ inserting => consumer.trans inserting
  cleared := fun _ inserting => .inl (consumer.symm.trans inserting)
  referenced := fun _ found => .inl (consumer ▸ found)

theorem advances_more {sequence : Nat} (at_ : loops.producer = .starting sequence)
    (more : sequence ≤ messageCount) :
    Advances messageCount storage loops { loops with producer := .acquiring sequence } objects
      objects := by
  apply Advances.of_producer
  case follows =>
    refine .inr ⟨.producer, ?_⟩
    simp [Baseline.step, Baseline.stepProducer, Loops.view, Producer.view, at_, more]
  case leases => simp only [Loops.leases, Producer.lease, at_]
  case consumer => rfl

theorem advances_close {sequence : Nat} (at_ : loops.producer = .starting sequence)
    (noMore : ¬ sequence ≤ messageCount) :
    Advances messageCount storage loops
      { loops with producer := .finished, queue := loops.queue.close } objects objects := by
  apply Advances.of_producer
  case follows =>
    refine .inr ⟨.producer, ?_⟩
    simp [Baseline.step, Baseline.stepProducer, Loops.view, Producer.view, at_, noMore,
      Queue.map, Queue.close]
  case leases => simp only [Loops.leases, Producer.lease, Queue.close, at_]
  case consumer => rfl

/-- The object that is filled belongs to no other lease on its way. -/
theorem advances_producing {sequence : Nat} {lease : Lease} (nodup : loops.held.Nodup)
    (bounded : ∀ index ∈ loops.held, index < objects.length)
    (at_ : loops.producer = .producing sequence lease) :
    Advances messageCount storage loops { loops with producer := .pushing sequence lease } objects
      (objects.modify lease.index (produce · (UInt64.ofNat sequence))) := by
  have found : loops.producer.lease = some lease := congrArg Producer.lease at_
  have member : lease ∈ loops.leases := by
    rw [Loops.leases, found]
    exact List.mem_append_right _ List.mem_cons_self
  have lt := bounded lease.index (List.mem_map_of_mem member)
  have others := Loops.ne_of_producer nodup found
  have same : ∀ other ∈ loops.consumer.lease.toList ++ loops.queue.items,
      contents (objects.set lease.index (produce {} (UInt64.ofNat sequence))) other =
        contents objects other :=
    fun other among => contents_set_ne (others other among) _
  rw [modify_produce]
  constructor
  case follows =>
    refine .inr ⟨.producer, ?_⟩
    have queue := queue_map_congr fun other among => same other (List.mem_append_right _ among)
    have consumer :=
      Consumer.view_congr fun other among => same other (List.mem_append_left _ among)
    simp only [Baseline.step, Baseline.stepProducer, Loops.view, Producer.view, at_, queue,
      consumer, contents_set_self lt]
  case leases => simp only [Loops.leases, Producer.lease, at_]
  case writes =>
    refine .inr ⟨lease, member, _, rfl, ?_⟩
    intro other inserting
    apply others other
    rw [inserting]
    exact List.mem_append_left _ List.mem_cons_self
  case inserting => exact fun _ inserting => inserting
  case cleared => exact fun _ inserting => .inl inserting
  case referenced => exact fun _ found => .inl found

theorem advances_pushing {sequence : Nat} {lease : Lease}
    (at_ : loops.producer = .pushing sequence lease) :
    Advances messageCount storage loops
      { loops with
        producer := .starting ((sequence + 1) % 2 ^ 64)
        queue := loops.queue.push lease } objects objects := by
  apply Advances.of_producer
  case follows =>
    refine .inr ⟨.producer, ?_⟩
    simp [Baseline.step, Baseline.stepProducer, Loops.view, Producer.view, at_, Queue.map,
      Queue.push]
  case leases => simp [Loops.leases, Producer.lease, Queue.push, at_]
  case consumer => rfl

theorem advances_stepProducer (nodup : loops.held.Nodup)
    (bounded : ∀ index ∈ loops.held, index < objects.length)
    (stepped : loops.stepProducer messageCount objects = some (next, written)) :
    Advances messageCount storage loops next objects written := by
  rw [Loops.stepProducer] at stepped
  cases at_ : loops.producer with
  | starting sequence =>
      simp only [at_] at stepped
      split at stepped
      next more =>
        cases stepped
        exact advances_more at_ more
      next noMore =>
        cases stepped
        exact advances_close at_ noMore
  | producing sequence lease =>
      simp only [at_] at stepped
      split at stepped <;> cases stepped
      exact advances_producing nodup bounded at_
  | pushing sequence lease =>
      simp only [at_] at stepped
      cases stepped
      exact advances_pushing at_
  | acquiring | finished =>
      rw [at_] at stepped
      cases stepped

/-- A step that leaves the objects and the producer alone. -/
theorem Advances.of_consumer
    (follows : Baseline.Follows messageCount (loops.view (contents objects))
      (next.view (contents objects)))
    (leases : next.leases = loops.leases) (before : ∀ lease, loops.consumer ≠ .inserting lease)
    (after : ∀ lease, next.consumer ≠ .inserting lease)
    (referenced : ∀ reference, next.consumer.reference = some reference →
      loops.consumer.binds = some reference.index ∧ reference.storage = storage.published) :
    Advances messageCount storage loops next objects objects where
  follows := follows
  leases := leases
  writes := .inl rfl
  inserting := fun lease inserting => absurd inserting (before lease)
  cleared := fun lease inserting => absurd inserting (after lease)
  referenced := fun reference found => .inr (referenced reference found)

section Consumer

variable {lease : Lease} {reference : Nat}

theorem advances_pop {queue : Queue Lease} {value : Option Lease}
    (at_ : loops.consumer = .waiting) (popped : loops.queue.pop = some (queue, value)) :
    Advances messageCount storage loops
      { loops with queue, consumer := value.elim .finished .received } objects objects := by
  have poppedView := Queue.pop_map (contents objects) loops.queue
  rw [popped, Option.map_some] at poppedView
  rcases Queue.pop_cases popped with ⟨rfl, rfl, -⟩ | ⟨lease, rfl, items, -⟩
  · apply Advances.of_consumer
    case follows =>
      refine .inr ⟨.consumer, ?_⟩
      simp only [Baseline.step, Baseline.stepConsumer, Loops.view, Consumer.view, at_,
        poppedView, Option.map_some, Option.map_none, Option.elim]
    case leases => simp only [Loops.leases, Consumer.lease, Option.elim, at_]
    case before => simp [at_]
    case after => rintro _ ⟨⟩
    case referenced => rintro _ ⟨⟩
  · apply Advances.of_consumer
    case follows =>
      refine .inr ⟨.consumer, ?_⟩
      simp only [Baseline.step, Baseline.stepConsumer, Loops.view, Consumer.view, at_,
        poppedView, Option.map_some, Option.elim]
    case leases => simp [Loops.leases, Consumer.lease, at_, items]
    case before => simp [at_]
    case after => rintro _ ⟨⟩
    case referenced => rintro _ ⟨⟩

/-- `operator*` gives a reference into the storage in place. -/
theorem advances_received (at_ : loops.consumer = .received lease) :
    Advances messageCount storage loops
      { loops with consumer := .consuming lease storage.published } objects objects := by
  apply Advances.of_consumer
  case follows =>
    refine .inl ?_
    simp only [Loops.view, Consumer.view, at_]
  case leases => simp only [Loops.leases, Consumer.lease, at_]
  case before => simp [at_]
  case after => rintro _ ⟨⟩
  case referenced =>
    rintro _ ⟨⟩
    exact ⟨congrArg Consumer.binds at_, rfl⟩

theorem advances_consuming (at_ : loops.consumer = .consuming lease reference) :
    Advances messageCount storage loops
      { loops with
        consumer := .releasing lease
        result := loops.result.count (contents objects lease) } objects objects := by
  apply Advances.of_consumer
  case follows =>
    refine .inr ⟨.consumer, ?_⟩
    simp only [Baseline.step, Baseline.stepConsumer, Loops.view, Consumer.view, at_]
  case leases => simp only [Loops.leases, Consumer.lease, at_]
  case before => simp [at_]
  case after => rintro _ ⟨⟩
  case referenced => rintro _ ⟨⟩

theorem advances_releasing (at_ : loops.consumer = .releasing lease) :
    Advances messageCount storage loops
      { loops with consumer := .clearing lease storage.published } objects objects := by
  apply Advances.of_consumer
  case follows =>
    refine .inl ?_
    simp only [Loops.view, Consumer.view, at_]
  case leases => simp only [Loops.leases, Consumer.lease, at_]
  case before => simp [at_]
  case after => rintro _ ⟨⟩
  case referenced =>
    rintro _ ⟨⟩
    exact ⟨congrArg Consumer.binds at_, rfl⟩

/-- The object that is cleared belongs to no lease on its way. -/
theorem advances_clearing (nodup : loops.held.Nodup)
    (bounded : ∀ index ∈ loops.held, index < objects.length)
    (at_ : loops.consumer = .clearing lease reference) :
    Advances messageCount storage loops { loops with consumer := .inserting lease } objects
      (objects.modify lease.index BookUpdate.clear) := by
  have found : loops.consumer.lease = some lease := congrArg Consumer.lease at_
  have member : lease ∈ loops.leases := by
    rw [Loops.leases, found]
    exact List.mem_append_left _ (List.mem_append_left _ List.mem_cons_self)
  have lt := bounded lease.index (List.mem_map_of_mem member)
  have others := Loops.ne_of_consumer nodup found
  have same : ∀ other ∈ loops.queue.items ++ loops.producer.lease.toList,
      contents (objects.set lease.index {}) other = contents objects other :=
    fun other among => contents_set_ne (others other among) _
  rw [modify_clear]
  constructor
  case follows =>
    refine .inl ?_
    have queue := queue_map_congr fun other among => same other (List.mem_append_left _ among)
    have producer :=
      Producer.view_congr fun other among => same other (List.mem_append_right _ among)
    simp only [Loops.view, Consumer.view, at_, queue, producer]
  case leases => simp only [Loops.leases, Consumer.lease, at_]
  case writes =>
    refine .inr ⟨lease, member, _, rfl, ?_⟩
    intro other inserting
    rw [at_] at inserting
    cases inserting
  case inserting =>
    intro other inserting
    rw [at_] at inserting
    cases inserting
  case cleared =>
    rintro _ ⟨⟩
    exact .inr (List.getElem?_set_self lt)
  case referenced => rintro _ ⟨⟩

end Consumer

theorem advances_stepConsumer (nodup : loops.held.Nodup)
    (bounded : ∀ index ∈ loops.held, index < objects.length)
    (stepped : loops.stepConsumer storage objects = some (next, written)) :
    Advances messageCount storage loops next objects written := by
  rw [Loops.stepConsumer] at stepped
  cases at_ : loops.consumer with
  | waiting =>
      simp only [at_] at stepped
      obtain ⟨⟨queue, value⟩, popped, same⟩ := Option.map_eq_some_iff.mp stepped
      cases value <;> cases same <;> exact advances_pop at_ popped
  | received lease =>
      simp only [at_] at stepped
      split at stepped <;> cases stepped
      exact advances_received at_
  | consuming lease reference =>
      simp only [at_] at stepped
      split at stepped <;> cases stepped
      exact advances_consuming at_
  | releasing lease =>
      rw [at_] at stepped
      cases stepped
      exact advances_releasing at_
  | clearing lease reference =>
      simp only [at_] at stepped
      split at stepped <;> cases stepped
      exact advances_clearing nodup bounded at_
  | inserting | finished =>
      rw [at_] at stepped
      cases stepped

/-- The messages arrive as they do without a pool, no lease is empty, and the
object that the consumer refers to lives where the reference says. -/
structure Delivers (messageCount : Nat) (storage : Storage) (loops : Loops)
    (objects : List BookUpdate) : Prop where
  onCourse : Baseline.OnCourse messageCount (loops.view (contents objects))
  leased : ∀ lease ∈ loops.leases, lease.pool = true
  referenced : ∀ reference, loops.consumer.reference = some reference →
    reference.storage = storage.location reference.index

/-- An index is inserted when its object has been cleared. -/
def InsertsCleared (loops : Loops) (objects : List BookUpdate) : Prop :=
  ∀ lease, loops.consumer = .inserting lease → objects[lease.index]? = some {}

theorem start_delivers (messageCount : Nat) (storage : Storage) (objects : List BookUpdate) :
    Delivers messageCount storage {} objects where
  onCourse := Baseline.start_onCourse messageCount
  leased := List.forall_mem_nil _
  referenced := nofun

/-- The step keeps the messages on course, if it makes no reference to an object
that has been moved away. -/
theorem Delivers.advance (bound : messageCount < 2 ^ 64 - 1)
    (delivers : Delivers messageCount storage loops objects)
    (advances : Advances messageCount storage loops next objects written)
    (unmoved : ∀ index, loops.consumer.binds = some index → storage.moved ≤ index) :
    Delivers messageCount storage next written where
  onCourse := delivers.onCourse.follows bound advances.follows
  leased := by
    rw [advances.leases]
    exact delivers.leased
  referenced := by
    intro reference found
    rcases advances.referenced reference found with before | ⟨binds, inPlace⟩
    · exact delivers.referenced reference before
    · rw [inPlace]
      exact Storage.location_eq_published_iff.mpr (unmoved _ binds)

theorem InsertsCleared.advance (inserts : InsertsCleared loops objects)
    (advances : Advances messageCount storage loops next objects written) :
    InsertsCleared next written := by
  intro lease inserting
  rcases advances.cleared lease inserting with before | cleared
  · have isCleared := inserts lease before
    rcases advances.writes with rfl | ⟨other, -, update, rfl, apart⟩
    · exact isCleared
    · exact (List.getElem?_set_ne (apart lease before).symm).trans isCleared
  · exact cleared

section Acquiring

variable {sequence : Nat} {lease : Lease}

theorem Loops.acquired_leases (at_ : loops.producer = .acquiring sequence) :
    (loops.acquired sequence lease).leases = loops.leases ++ [lease] := by
  simp [leases, acquired, at_, Producer.lease]

theorem Loops.acquired_held (at_ : loops.producer = .acquiring sequence) :
    (loops.acquired sequence lease).held.Perm (lease.index :: loops.held) := by
  rw [held, acquired_leases at_, List.map_append]
  exact List.perm_append_singleton _ _

theorem Loops.acquired_view (at_ : loops.producer = .acquiring sequence)
    (meaning : Lease → BookUpdate) :
    (loops.acquired sequence lease).view meaning = loops.view meaning := by
  simp only [view, acquired, at_, Producer.view]

/-- The producer gets a lease, and the objects of the others stay what they are. -/
theorem Delivers.acquire {later : Storage} (delivers : Delivers messageCount storage loops objects)
    (at_ : loops.producer = .acquiring sequence) (owned : lease.pool = true)
    (same : ∀ other ∈ loops.leases, contents written other = contents objects other)
    (referenced : ∀ reference, loops.consumer.reference = some reference →
      reference.storage = later.location reference.index) :
    Delivers messageCount later (loops.acquired sequence lease) written where
  onCourse := by
    rw [Loops.acquired_view at_, Loops.view_congr same]
    exact delivers.onCourse
  leased := by
    rw [Loops.acquired_leases at_]
    intro other member
    rcases List.mem_append.mp member with before | new
    · exact delivers.leased other before
    · rw [List.mem_singleton.mp new]
      exact owned
  referenced := referenced

end Acquiring

section Releasing

variable {lease : Lease}

theorem Loops.released_leases (at_ : loops.consumer = .inserting lease) :
    loops.leases = lease :: loops.released.leases := by
  simp [leases, released, at_, Consumer.lease]

theorem Loops.released_held (at_ : loops.consumer = .inserting lease) :
    loops.held = lease.index :: loops.released.held := by
  rw [held, released_leases at_, List.map_cons, held]

theorem Delivers.release (delivers : Delivers messageCount storage loops objects)
    (at_ : loops.consumer = .inserting lease) :
    Delivers messageCount storage loops.released objects where
  onCourse := by
    have view : loops.released.view (contents objects) = loops.view (contents objects) := by
      simp only [Loops.view, Loops.released, at_, Consumer.view]
    rw [view]
    exact delivers.onCourse
  leased := by
    have leased := delivers.leased
    rw [Loops.released_leases at_] at leased
    exact (List.forall_mem_cons.mp leased).2
  referenced := nofun

end Releasing

/-- Loops in which neither thread can go on have reported all messages. -/
theorem Delivers.reports_of_stuck (delivers : Delivers messageCount storage loops objects)
    (notAcquiring : ∀ sequence, loops.producer ≠ .acquiring sequence)
    (notInserting : ∀ lease, loops.consumer ≠ .inserting lease)
    (producerStuck : loops.stepProducer messageCount objects = none)
    (consumerStuck : loops.stepConsumer storage objects = none) :
    loops.result = report messageCount := by
  have leased := delivers.leased
  have atEnd : loops.producer = .finished := by
    rw [Loops.stepProducer] at producerStuck
    cases at_ : loops.producer with
    | starting sequence =>
        simp only [at_] at producerStuck
        split at producerStuck <;> cases producerStuck
    | acquiring sequence => exact absurd at_ (notAcquiring sequence)
    | producing sequence lease =>
        have owned : lease.pool = true := by
          apply leased lease
          rw [Loops.leases, at_]
          exact List.mem_append_right _ List.mem_cons_self
        simp only [at_, if_pos owned] at producerStuck
        cases producerStuck
    | pushing sequence lease =>
        rw [at_] at producerStuck
        cases producerStuck
    | finished => rfl
  have closed : loops.queue.closed = true := by
    apply delivers.onCourse.closed.mpr
    rw [Loops.view, atEnd]
    rfl
  have received : ∀ lease, loops.consumer.lease = some lease → lease.pool = true := by
    intro lease found
    apply leased lease
    rw [Loops.leases, found]
    exact List.mem_append_left _ (List.mem_append_left _ List.mem_cons_self)
  rw [Loops.stepConsumer] at consumerStuck
  cases at_ : loops.consumer with
  | waiting =>
      simp only [at_, Option.map_eq_none_iff, Queue.pop, closed] at consumerStuck
      split at consumerStuck <;> cases consumerStuck
  | received lease =>
      have owned := received lease (congrArg Consumer.lease at_)
      simp only [at_, if_pos owned] at consumerStuck
      cases consumerStuck
  | consuming lease reference | clearing lease reference =>
      have current := delivers.referenced { index := lease.index, storage := reference }
        (congrArg Consumer.reference at_)
      simp only [at_, if_pos current] at consumerStuck
      cases consumerStuck
  | releasing lease =>
      rw [at_] at consumerStuck
      cases consumerStuck
  | inserting lease => exact absurd at_ (notInserting lease)
  | finished =>
      have ended : (loops.view (contents objects)).consumer = .finished := by
        rw [Loops.view, at_]
        rfl
      exact (delivers.onCourse.ended ended).2

def Producer.work (messageCount : Nat) : Producer → Nat
  | .starting sequence => 10 * (messageCount + 1 - sequence) + 1
  | .acquiring sequence => 10 * (messageCount - sequence) + 10
  | .producing sequence _ => 10 * (messageCount - sequence) + 9
  | .pushing sequence _ => 10 * (messageCount - sequence) + 8
  | .finished => 0

def Consumer.work : Consumer → Nat
  | .received _ => 6
  | .consuming _ _ => 5
  | .releasing _ => 4
  | .clearing _ _ => 3
  | .inserting _ => 2
  | .waiting => 1
  | .finished => 0

def Loops.work (messageCount : Nat) (loops : Loops) : Nat :=
  loops.producer.work messageCount + 6 * loops.queue.items.length + loops.consumer.work

/-- The producer is not past the last message. -/
def Producer.InRange (messageCount : Nat) : Producer → Prop
  | .acquiring sequence | .producing sequence _ | .pushing sequence _ => sequence ≤ messageCount
  | .starting _ | .finished => True

/-- The number of calls of `acquire` that have still to return. -/
def Producer.calls (messageCount : Nat) : Producer → Nat
  | .starting sequence => messageCount + 1 - sequence
  | .acquiring sequence => messageCount - sequence + 1
  | .producing sequence _ | .pushing sequence _ => messageCount - sequence
  | .finished => 0

/-- Below the largest number of messages the counter does not wrap around. -/
theorem Loops.stepProducer_frame (bound : messageCount < 2 ^ 64 - 1)
    (inRange : loops.producer.InRange messageCount)
    (stepped : loops.stepProducer messageCount objects = some (next, written)) :
    next.producer.InRange messageCount ∧
      next.producer.calls messageCount = loops.producer.calls messageCount ∧
      written.length = objects.length := by
  rw [stepProducer] at stepped
  cases at_ : loops.producer with
  | starting sequence =>
      simp only [at_] at stepped
      split at stepped
      next le =>
        cases stepped
        exact ⟨le, (Nat.succ_sub le).symm, rfl⟩
      next past =>
        cases stepped
        exact ⟨trivial, (Nat.sub_eq_zero_of_le (Nat.not_le.mp past)).symm, rfl⟩
  | producing sequence lease =>
      rw [at_] at inRange
      simp only [at_] at stepped
      split at stepped <;> cases stepped
      exact ⟨inRange, rfl, List.length_modify _ _ _⟩
  | pushing sequence lease =>
      rw [at_] at inRange stepped
      have le : sequence ≤ messageCount := inRange
      have counted : (sequence + 1) % 2 ^ 64 = sequence + 1 := Nat.mod_eq_of_lt (by omega)
      simp only [counted, Option.some_inj, Prod.mk.injEq] at stepped
      obtain ⟨rfl, rfl⟩ := stepped
      exact ⟨trivial, Nat.succ_sub_succ _ _, rfl⟩
  | acquiring | finished =>
      rw [at_] at stepped
      cases stepped

theorem Loops.stepConsumer_frame
    (stepped : loops.stepConsumer storage objects = some (next, written)) :
    next.producer = loops.producer ∧ written.length = objects.length := by
  rw [stepConsumer] at stepped
  cases at_ : loops.consumer with
  | waiting =>
      simp only [at_] at stepped
      obtain ⟨⟨queue, value⟩, -, same⟩ := Option.map_eq_some_iff.mp stepped
      cases value <;> cases same <;> exact ⟨rfl, rfl⟩
  | received | consuming =>
      simp only [at_] at stepped
      split at stepped <;> cases stepped
      exact ⟨rfl, rfl⟩
  | clearing =>
      simp only [at_] at stepped
      split at stepped <;> cases stepped
      exact ⟨rfl, List.length_modify _ _ _⟩
  | releasing lease =>
      rw [at_] at stepped
      cases stepped
      exact ⟨rfl, rfl⟩
  | inserting | finished =>
      rw [at_] at stepped
      cases stepped

/-- The reference that the consumer makes is into the storage in place. -/
theorem Loops.reference_of_binds {index : Nat} (binds : loops.consumer.binds = some index)
    (stepped : loops.stepConsumer storage objects = some (next, written)) :
    next.consumer.reference = some { index, storage := storage.published } := by
  rw [stepConsumer] at stepped
  cases at_ : loops.consumer with
  | received lease =>
      rw [at_] at binds
      cases binds
      simp only [at_] at stepped
      split at stepped <;> cases stepped
      rfl
  | releasing lease =>
      rw [at_] at binds stepped
      cases binds
      cases stepped
      rfl
  | waiting | consuming | clearing | inserting | finished =>
      rw [at_] at binds
      cases binds

theorem Loops.acquired_inRange {sequence : Nat} (at_ : loops.producer = .acquiring sequence)
    (inRange : loops.producer.InRange messageCount) (lease : Lease) :
    (loops.acquired sequence lease).producer.InRange messageCount := by
  rw [at_] at inRange
  exact inRange

theorem Loops.stepProducer_work (bound : messageCount < 2 ^ 64 - 1)
    (inRange : loops.producer.InRange messageCount)
    (stepped : loops.stepProducer messageCount objects = some (next, written)) :
    next.work messageCount < loops.work messageCount := by
  rw [stepProducer] at stepped
  cases at_ : loops.producer with
  | starting sequence =>
      simp only [at_] at stepped
      split at stepped <;> cases stepped <;> simp only [work, Producer.work, Queue.close, at_] <;>
        omega
  | producing sequence lease =>
      simp only [at_] at stepped
      split at stepped <;> cases stepped
      simp only [work, Producer.work, at_]
      omega
  | pushing sequence lease =>
      rw [at_] at inRange stepped
      have counted : (sequence + 1) % 2 ^ 64 = sequence + 1 := by
        have le : sequence ≤ messageCount := inRange
        exact Nat.mod_eq_of_lt (by omega)
      simp only [counted, Option.some_inj, Prod.mk.injEq] at stepped
      obtain ⟨rfl, rfl⟩ := stepped
      simp only [work, Producer.work, Queue.push, at_, List.length_append, List.length_singleton]
      omega
  | acquiring | finished =>
      rw [at_] at stepped
      cases stepped

theorem Loops.stepConsumer_work
    (stepped : loops.stepConsumer storage objects = some (next, written)) :
    next.work messageCount < loops.work messageCount := by
  rw [stepConsumer] at stepped
  cases at_ : loops.consumer with
  | waiting =>
      simp only [at_] at stepped
      obtain ⟨⟨queue, value⟩, popped, same⟩ := Option.map_eq_some_iff.mp stepped
      rcases Queue.pop_cases popped with ⟨rfl, rfl, -⟩ | ⟨lease, rfl, items, -⟩
      · cases same
        simp only [work, Consumer.work, at_]
        omega
      · cases same
        simp only [work, Consumer.work, at_, items, List.length_cons]
        omega
  | received | consuming | clearing =>
      simp only [at_] at stepped
      split at stepped <;> cases stepped
      simp only [work, Consumer.work, at_]
      omega
  | releasing lease =>
      rw [at_] at stepped
      cases stepped
      simp only [work, Consumer.work, at_]
      omega
  | inserting | finished =>
      rw [at_] at stepped
      cases stepped

theorem Loops.acquired_work {sequence : Nat} (at_ : loops.producer = .acquiring sequence)
    (lease : Lease) :
    (loops.acquired sequence lease).work messageCount < loops.work messageCount := by
  simp only [work, acquired, Producer.work, at_]
  omega

theorem Loops.released_work {lease : Lease} (at_ : loops.consumer = .inserting lease) :
    loops.released.work messageCount < loops.work messageCount := by
  simp only [work, released, Consumer.work, at_]
  omega

end Steps

end Pooled

end PerfTests

end Pools

end ExchangeConnectivity
