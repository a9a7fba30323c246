import ExchangeConnectivity.BoundedQueue
import Mathlib.Algebra.Group.Nat.Defs
import Mathlib.Data.Nat.Bits

/-!
# The ring buffer

`RingBuffer` of `pools/main.cpp`, a queue between one producer and one
consumer.  Each side keeps a copy of the other side's cursor and reads the
cursor itself only when the copy leaves no room or no element.
-/

namespace ExchangeConnectivity

open BoundedQueue

namespace Pools

def isPowOf2 (value : Nat) : Bool :=
  value ≠ 0 && value &&& (value - 1) = 0

/-- The capacities the static assertions admit. -/
structure Capacity where
  value : Nat
  powerOfTwo : isPowOf2 value = true
  atLeastTwo : 2 ≤ value

namespace Capacity

variable (capacity : Capacity)

def kMask : Nat :=
  capacity.value - 1

/-- The slot of a cursor. -/
def slot (seq : Nat) : Nat :=
  seq &&& capacity.kMask

theorem exists_eq_two_pow : ∃ exponent, capacity.value = 2 ^ exponent := by
  have powerOfTwo := capacity.powerOfTwo
  simp only [isPowOf2, Bool.and_eq_true, decide_eq_true_eq] at powerOfTwo
  exact Nat.ne_zero_and_sub_one_eq_zero_iff_isPowerOfTwo.mp powerOfTwo

theorem slot_eq_mod (seq : Nat) : capacity.slot seq = seq % capacity.value := by
  obtain ⟨exponent, valueEq⟩ := capacity.exists_eq_two_pow
  rw [slot, kMask, valueEq, Nat.and_two_pow_sub_one_eq_mod]

theorem slot_lt (seq : Nat) : capacity.slot seq < capacity.value := by
  have atLeastTwo := capacity.atLeastTwo
  rw [slot_eq_mod]
  exact Nat.mod_lt seq (by omega)

/-- Cursors less than a capacity apart have slots of their own. -/
theorem slot_injective {first second : Nat} (le : first ≤ second)
    (near : second < first + capacity.value)
    (same : capacity.slot first = capacity.slot second) : first = second := by
  rw [slot_eq_mod, slot_eq_mod] at same
  have remainder : (second - first) % capacity.value = 0 :=
    Nat.sub_mod_eq_zero_of_mod_eq same.symm
  rw [Nat.mod_eq_of_lt (by omega)] at remainder
  omega

end Capacity

/-- Where the producer stands in `emplace` or `push`; `seq` is its own cursor as
it has loaded it. -/
inductive Producer (T : Type*)
  | idle
  | compare (item : T) (seq : Nat)
  | refresh (item : T) (seq : Nat)
  | recheck (item : T) (seq : Nat)
  | access (item : T) (seq : Nat)
  | publish (item : T) (seq : Nat)
  deriving DecidableEq

/-- The element a call is to add. -/
def Producer.item {T : Type*} : Producer T → Option T
  | .idle => none
  | .compare item _ | .refresh item _ | .recheck item _ | .access item _ | .publish item _ =>
      some item

/-- Where the consumer stands in `pop`. -/
inductive Consumer (T : Type*)
  | idle
  | compare (seq : Nat)
  | refresh (seq : Nat)
  | recheck (seq : Nat)
  | access (seq : Nat)
  | publish (item : T) (seq : Nat)
  deriving DecidableEq

/-- A `RingBuffer` with its two threads.  The cursors are natural numbers, as
they are taken not to reach `2 ^ 63`.  `returned` and `taken` log the results
of the calls, and `history` the operations on the queue at the moments they
take effect. -/
structure RingBuffer (T : Type*) (capacity : Capacity) where
  buffer : Vector T capacity.value
  writeCursor : Nat := 0
  cachedReadCursor : Nat := 0
  readCursor : Nat := 0
  cachedWriteCursor : Nat := 0
  producer : Producer T := .idle
  consumer : Consumer T := .idle
  returned : List (T × Bool) := []
  taken : List (Option T) := []
  history : List (BoundedQueue.Operation T) := []

namespace RingBuffer

variable {T : Type*} {capacity : Capacity}

/-- What the slot of a cursor holds. -/
def entry (buffer : Vector T capacity.value) (seq : Nat) : T :=
  have inBounds := capacity.slot_lt seq
  buffer[capacity.slot seq]

def read (ring : RingBuffer T capacity) (seq : Nat) : T :=
  entry ring.buffer seq

def write (ring : RingBuffer T capacity) (seq : Nat) (item : T) : Vector T capacity.value :=
  ring.buffer.set (capacity.slot seq) item (capacity.slot_lt seq)

/-- The elements published and not yet released. -/
def unread (ring : RingBuffer T capacity) : List T :=
  (pushed ring.history).drop ring.readCursor

def log (ring : RingBuffer T capacity) (operation : BoundedQueue.Operation T) :
    RingBuffer T capacity :=
  { ring with history := ring.history ++ [operation] }

/-- The producer sees no room behind its copy of the read cursor. -/
def SeesFull (ring : RingBuffer T capacity) (seq : Nat) : Prop :=
  capacity.value ≤ seq - ring.cachedReadCursor

instance (ring : RingBuffer T capacity) (seq : Nat) : Decidable (ring.SeesFull seq) :=
  inferInstanceAs (Decidable (_ ≤ _))

/-- A call of `emplace`. -/
def emplace (ring : RingBuffer T capacity) (item : T) : Option (RingBuffer T capacity) :=
  match ring.producer with
  | .idle => some { ring with producer := .compare item ring.writeCursor }
  | _ => none

/-- A call of `push`, which assigns the element to its slot where `emplace`
constructs it there. -/
def push (ring : RingBuffer T capacity) (item : T) : Option (RingBuffer T capacity) :=
  ring.emplace item

/-- The next step of the call, with its result if it returns.  A call that will
find the queue full takes effect when it refreshes the copy. -/
def stepProducer (ring : RingBuffer T capacity) : Option (RingBuffer T capacity × Option Bool) :=
  match ring.producer with
  | .idle => none
  | .compare item seq =>
      if ring.SeesFull seq then some ({ ring with producer := .refresh item seq }, none)
      else some ({ ring with producer := .access item seq }, none)
  | .refresh item seq =>
      let refreshed :=
        { ring with cachedReadCursor := ring.readCursor, producer := .recheck item seq }
      some (if refreshed.SeesFull seq then refreshed.log (.refuse item) else refreshed, none)
  | .recheck item seq =>
      if ring.SeesFull seq then
        some ({ ring with producer := .idle, returned := ring.returned ++ [(item, false)] },
          some false)
      else some ({ ring with producer := .access item seq }, none)
  | .access item seq =>
      some ({ ring with buffer := ring.write seq item, producer := .publish item seq }, none)
  | .publish item seq =>
      let published :=
        { ring with
          writeCursor := seq + 1
          producer := .idle
          returned := ring.returned ++ [(item, true)] }
      some (published.log (.push item), some true)

/-- The consumer sees no element before its copy of the write cursor. -/
def SeesEmpty (ring : RingBuffer T capacity) (seq : Nat) : Prop :=
  ring.cachedWriteCursor ≤ seq

instance (ring : RingBuffer T capacity) (seq : Nat) : Decidable (ring.SeesEmpty seq) :=
  inferInstanceAs (Decidable (_ ≤ _))

/-- A call of `pop`. -/
def pop (ring : RingBuffer T capacity) : Option (RingBuffer T capacity) :=
  match ring.consumer with
  | .idle => some { ring with consumer := .compare ring.readCursor }
  | _ => none

/-- The next step of the call, with its result if it returns; `movedFrom` is
what a move leaves of an element. -/
def stepConsumer (movedFrom : T → T) (ring : RingBuffer T capacity) :
    Option (RingBuffer T capacity × Option (Option T)) :=
  match ring.consumer with
  | .idle => none
  | .compare seq =>
      if ring.SeesEmpty seq then some ({ ring with consumer := .refresh seq }, none)
      else some ({ ring with consumer := .access seq }, none)
  | .refresh seq =>
      let refreshed :=
        { ring with cachedWriteCursor := ring.writeCursor, consumer := .recheck seq }
      some (if refreshed.SeesEmpty seq then refreshed.log .miss else refreshed, none)
  | .recheck seq =>
      if ring.SeesEmpty seq then
        some ({ ring with consumer := .idle, taken := ring.taken ++ [none] }, some none)
      else some ({ ring with consumer := .access seq }, none)
  | .access seq =>
      let item := ring.read seq
      some ({ ring with buffer := ring.write seq (movedFrom item), consumer := .publish item seq },
        none)
  | .publish item seq =>
      let released :=
        { ring with
          readCursor := seq + 1
          consumer := .idle
          taken := ring.taken ++ [some item] }
      some (released.log (.pop item), some (some item))

/-- The ways a step of the producer goes, with the result it returns. -/
inductive ProducerStep (ring : RingBuffer T capacity) :
    RingBuffer T capacity → Option Bool → Prop
  | seesFull {item : T} {seq : Nat} (at_ : ring.producer = .compare item seq)
      (full : ring.SeesFull seq) :
      ProducerStep ring { ring with producer := .refresh item seq } none
  | seesRoom {item : T} {seq : Nat} (at_ : ring.producer = .compare item seq)
      (room : ¬ ring.SeesFull seq) :
      ProducerStep ring { ring with producer := .access item seq } none
  | refuse {item : T} {seq : Nat} (at_ : ring.producer = .refresh item seq)
      (full : capacity.value ≤ seq - ring.readCursor) :
      ProducerStep ring
        (log { ring with
          cachedReadCursor := ring.readCursor
          producer := .recheck item seq } (.refuse item)) none
  | refresh {item : T} {seq : Nat} (at_ : ring.producer = .refresh item seq)
      (room : ¬ capacity.value ≤ seq - ring.readCursor) :
      ProducerStep ring
        { ring with cachedReadCursor := ring.readCursor, producer := .recheck item seq } none
  | full {item : T} {seq : Nat} (at_ : ring.producer = .recheck item seq)
      (full : ring.SeesFull seq) :
      ProducerStep ring
        { ring with producer := .idle, returned := ring.returned ++ [(item, false)] }
        (some false)
  | room {item : T} {seq : Nat} (at_ : ring.producer = .recheck item seq)
      (room : ¬ ring.SeesFull seq) :
      ProducerStep ring { ring with producer := .access item seq } none
  | write {item : T} {seq : Nat} (at_ : ring.producer = .access item seq) :
      ProducerStep ring
        { ring with buffer := ring.write seq item, producer := .publish item seq } none
  | publish {item : T} {seq : Nat} (at_ : ring.producer = .publish item seq) :
      ProducerStep ring
        (log { ring with
          writeCursor := seq + 1
          producer := .idle
          returned := ring.returned ++ [(item, true)] } (.push item)) (some true)

/-- The ways a step of the consumer goes. -/
inductive ConsumerStep (movedFrom : T → T) (ring : RingBuffer T capacity) :
    RingBuffer T capacity → Option (Option T) → Prop
  | seesEmpty {seq : Nat} (at_ : ring.consumer = .compare seq) (empty : ring.SeesEmpty seq) :
      ConsumerStep movedFrom ring { ring with consumer := .refresh seq } none
  | seesItem {seq : Nat} (at_ : ring.consumer = .compare seq) (some_ : ¬ ring.SeesEmpty seq) :
      ConsumerStep movedFrom ring { ring with consumer := .access seq } none
  | miss {seq : Nat} (at_ : ring.consumer = .refresh seq) (empty : ring.writeCursor ≤ seq) :
      ConsumerStep movedFrom ring
        (log { ring with
          cachedWriteCursor := ring.writeCursor
          consumer := .recheck seq } .miss) none
  | refresh {seq : Nat} (at_ : ring.consumer = .refresh seq) (some_ : ¬ ring.writeCursor ≤ seq) :
      ConsumerStep movedFrom ring
        { ring with cachedWriteCursor := ring.writeCursor, consumer := .recheck seq } none
  | empty {seq : Nat} (at_ : ring.consumer = .recheck seq) (empty : ring.SeesEmpty seq) :
      ConsumerStep movedFrom ring
        { ring with consumer := .idle, taken := ring.taken ++ [none] } (some none)
  | item {seq : Nat} (at_ : ring.consumer = .recheck seq) (some_ : ¬ ring.SeesEmpty seq) :
      ConsumerStep movedFrom ring { ring with consumer := .access seq } none
  | read {seq : Nat} (at_ : ring.consumer = .access seq) :
      ConsumerStep movedFrom ring
        { ring with
          buffer := ring.write seq (movedFrom (ring.read seq))
          consumer := .publish (ring.read seq) seq } none
  | publish {item : T} {seq : Nat} (at_ : ring.consumer = .publish item seq) :
      ConsumerStep movedFrom ring
        (log { ring with
          readCursor := seq + 1
          consumer := .idle
          taken := ring.taken ++ [some item] } (.pop item)) (some (some item))

section Inversion

variable {ring next : RingBuffer T capacity}

theorem stepProducer_cases {result : Option Bool}
    (stepped : ring.stepProducer = some (next, result)) : ProducerStep ring next result := by
  rw [stepProducer] at stepped
  cases at_ : ring.producer with
  | idle =>
      rw [at_] at stepped
      cases stepped
  | compare item seq =>
      simp only [at_] at stepped
      split at stepped <;> cases stepped
      next full => exact .seesFull at_ full
      next room => exact .seesRoom at_ room
  | refresh item seq =>
      simp only [at_, Option.some_inj, Prod.mk.injEq] at stepped
      obtain ⟨rfl, rfl⟩ := stepped
      split
      next full => exact .refuse at_ full
      next room => exact .refresh at_ room
  | recheck item seq =>
      simp only [at_] at stepped
      split at stepped <;> cases stepped
      next full => exact .full at_ full
      next room => exact .room at_ room
  | access item seq =>
      rw [at_] at stepped
      cases stepped
      exact .write at_
  | publish item seq =>
      rw [at_] at stepped
      cases stepped
      exact .publish at_

theorem stepConsumer_cases {movedFrom : T → T} {result : Option (Option T)}
    (stepped : ring.stepConsumer movedFrom = some (next, result)) :
    ConsumerStep movedFrom ring next result := by
  rw [stepConsumer] at stepped
  cases at_ : ring.consumer with
  | idle =>
      rw [at_] at stepped
      cases stepped
  | compare seq =>
      simp only [at_] at stepped
      split at stepped <;> cases stepped
      next empty => exact .seesEmpty at_ empty
      next some_ => exact .seesItem at_ some_
  | refresh seq =>
      simp only [at_, Option.some_inj, Prod.mk.injEq] at stepped
      obtain ⟨rfl, rfl⟩ := stepped
      split
      next empty => exact .miss at_ empty
      next some_ => exact .refresh at_ some_
  | recheck seq =>
      simp only [at_] at stepped
      split at stepped <;> cases stepped
      next empty => exact .empty at_ empty
      next some_ => exact .item at_ some_
  | access seq =>
      rw [at_] at stepped
      cases stepped
      exact .read at_
  | publish item seq =>
      rw [at_] at stepped
      cases stepped
      exact .publish at_

theorem emplace_eq_some {item : T} (called : ring.emplace item = some next) :
    ring.producer = .idle ∧
      next = { ring with producer := .compare item ring.writeCursor } := by
  rw [emplace] at called
  split at called
  next idle => exact ⟨idle, (Option.some.inj called).symm⟩
  next => cases called

theorem pop_eq_some (called : ring.pop = some next) :
    ring.consumer = .idle ∧ next = { ring with consumer := .compare ring.readCursor } := by
  rw [pop] at called
  split at called
  next idle => exact ⟨idle, (Option.some.inj called).symm⟩
  next => cases called

end Inversion

/-- The producer goes on until its call returns, for at most `fuel` steps. -/
def runProducer : Nat → RingBuffer T capacity → Option (RingBuffer T capacity × Bool)
  | 0, _ => none
  | fuel + 1, ring =>
      match ring.stepProducer with
      | some (next, some result) => some (next, result)
      | some (next, none) => runProducer fuel next
      | none => none

/-- A call of `emplace` from its start to its return. -/
def emplaceAlone (ring : RingBuffer T capacity) (item : T) :
    Option (RingBuffer T capacity × Bool) :=
  (ring.emplace item).bind (runProducer 5)

/-- The consumer goes on until its call returns. -/
def runConsumer (movedFrom : T → T) :
    Nat → RingBuffer T capacity → Option (RingBuffer T capacity × Option T)
  | 0, _ => none
  | fuel + 1, ring =>
      match ring.stepConsumer movedFrom with
      | some (next, some result) => some (next, result)
      | some (next, none) => runConsumer movedFrom fuel next
      | none => none

/-- A call of `pop` from its start to its return. -/
def popAlone (movedFrom : T → T) (ring : RingBuffer T capacity) :
    Option (RingBuffer T capacity × Option T) :=
  ring.pop.bind (runConsumer movedFrom 5)

/-- A call, or one step of the call a thread is in. -/
inductive Event (T : Type*)
  | emplace (item : T)
  | push (item : T)
  | producer
  | pop
  | consumer

def step (movedFrom : T → T) (ring : RingBuffer T capacity) :
    Event T → Option (RingBuffer T capacity)
  | .emplace item => ring.emplace item
  | .push item => ring.push item
  | .producer => ring.stepProducer.map Prod.fst
  | .pop => ring.pop
  | .consumer => (ring.stepConsumer movedFrom).map Prod.fst

/-- A new ring buffer; its slots hold default values. -/
def empty (buffer : Vector T capacity.value) : RingBuffer T capacity where
  buffer

end RingBuffer

end Pools

end ExchangeConnectivity
