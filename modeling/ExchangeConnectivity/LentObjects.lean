import Mathlib.Data.List.Range

/-!
# Lending objects

Objects kept in a list and named by their positions.  Each of them is either
free or lent to one holder, and a free object is blank.  The lemmas say which
changes of the objects, of the free list and of the holders keep this.
-/

namespace LentObjects

variable {Object : Type*}

/-- Every object is free or lent, in one place only, and the free ones are blank. -/
structure Lending (blank : Object) (objects : List Object) (free held : List Nat) : Prop where
  partition : (free ++ held).Perm (List.range objects.length)
  blank : ∀ index ∈ free, objects[index]? = some blank

variable {blank object : Object} {objects : List Object} {free held rest others : List Nat}
  {index : Nat}

theorem Lending.nodup (lending : Lending blank objects free held) : (free ++ held).Nodup :=
  lending.partition.nodup_iff.mpr List.nodup_range

theorem Lending.length (lending : Lending blank objects free held) :
    free.length + held.length = objects.length := by
  have same := lending.partition.length_eq
  rwa [List.length_append, List.length_range] at same

theorem Lending.lt_of_held (lending : Lending blank objects free held) (isHeld : index ∈ held) :
    index < objects.length :=
  List.mem_range.mp (lending.partition.subset (List.mem_append_right free isHeld))

/-- An object that is lent is not free. -/
theorem Lending.not_free (lending : Lending blank objects free held) (isHeld : index ∈ held) :
    index ∉ free := by
  intro isFree
  exact (List.nodup_append.mp lending.nodup).2.2 index isFree index isHeld rfl

/-- The order in which the indices are listed does not matter. -/
theorem Lending.of_perm (lending : Lending blank objects free held) (frees : rest.Perm free)
    (holders : others.Perm held) : Lending blank objects rest others where
  partition := (frees.append holders).trans lending.partition
  blank := fun index isFree => lending.blank index (frees.subset isFree)

/-- A free object is lent. -/
theorem Lending.lend (lending : Lending blank objects free held)
    (frees : free.Perm (index :: rest)) : Lending blank objects rest (index :: held) where
  partition := by
    have moved : (rest ++ index :: held).Perm (index :: rest ++ held) := List.perm_middle
    exact (moved.trans (frees.symm.append_right held)).trans lending.partition
  blank := fun other isFree =>
    lending.blank other (frees.symm.subset (List.mem_cons_of_mem _ isFree))

/-- A new blank object is lent. -/
theorem Lending.grow (lending : Lending blank objects free held) :
    Lending blank (objects ++ [blank]) free (objects.length :: held) where
  partition := by
    rw [List.length_append, List.length_singleton, List.range_succ]
    have moved : (free ++ objects.length :: held).Perm (free ++ held ++ [objects.length]) := by
      rw [List.append_assoc]
      exact (List.perm_append_singleton _ _).symm.append_left free
    exact moved.trans (lending.partition.append_right _)
  blank := by
    intro other isFree
    have isBlank := lending.blank other isFree
    obtain ⟨bound, -⟩ := List.getElem?_eq_some_iff.mp isBlank
    rw [List.getElem?_append_left bound, isBlank]

/-- A holder may do what it likes with its object. -/
theorem Lending.write (lending : Lending blank objects free held) (isHeld : index ∈ held) :
    Lending blank (objects.set index object) free held where
  partition := by
    rw [List.length_set]
    exact lending.partition
  blank := by
    intro other isFree
    have different : index ≠ other := by
      rintro rfl
      exact lending.not_free isHeld isFree
    rw [List.getElem?_set_ne different]
    exact lending.blank other isFree

/-- An object that is blank again is given back. -/
theorem Lending.giveBack (lending : Lending blank objects free held)
    (holders : held.Perm (index :: rest)) (isBlank : objects[index]? = some blank) :
    Lending blank objects (free ++ [index]) rest where
  partition := by
    rw [List.append_assoc, List.singleton_append]
    exact (holders.symm.append_left free).trans lending.partition
  blank := by
    intro other isFree
    rcases List.mem_append.mp isFree with isFree | returned
    · exact lending.blank other isFree
    · rw [List.mem_singleton.mp returned]
      exact isBlank

end LentObjects
