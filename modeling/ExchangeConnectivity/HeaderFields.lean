import ExchangeConnectivity.HttpExchange
import Mathlib.Data.List.Forall2

/-!
# Header fields of a response

The names of fields are put into lower case where they are inserted and where
they are looked up, and the first of several fields with one name stays.  So
the lookup finds the first field whose name is the key but for its case.
-/

namespace ExchangeConnectivity

open ByteStrings

namespace HttpExchange

def IsUpperCase (byte : UInt8) : Prop :=
  'A'.toUInt8 ≤ byte ∧ byte ≤ 'Z'.toUInt8

/-- The bytes are equal, or the two cases of an ASCII letter. -/
def SameLetter (first second : UInt8) : Prop :=
  first = second ∨ (IsUpperCase first ∧ second = first + 32) ∨
    (IsUpperCase second ∧ first = second + 32)

/-- Equality ignoring the case of ASCII letters. -/
def EqualIgnoringCase : Bytes → Bytes → Prop :=
  List.Forall₂ SameLetter

theorem sameLetter_iff (first second : UInt8) :
    SameLetter first second ↔ toLower [first] = toLower [second] := by
  have range := first.toNat_lt
  have rangeSecond := second.toNat_lt
  have letterA : 'A'.toUInt8.toNat = 65 := rfl
  have letterZ : 'Z'.toUInt8.toNat = 90 := rfl
  have step : (32 : UInt8).toNat = 32 := rfl
  simp only [SameLetter, IsUpperCase, toLower, List.map_cons, List.map_nil, List.cons.injEq,
    and_true, UInt8.le_iff_toNat_le, letterA, letterZ]
  split_ifs with upper upperSecond upperSecond <;>
    simp only [← UInt8.toNat_inj, UInt8.toNat_add, step] <;> omega

theorem equalIgnoringCase_iff {first second : Bytes} :
    EqualIgnoringCase first second ↔ toLower first = toLower second := by
  induction first generalizing second with
  | nil =>
      cases second with
      | nil => exact iff_of_true .nil rfl
      | cons => exact iff_of_false nofun nofun
  | cons byte first ih =>
      cases second with
      | nil => exact iff_of_false nofun nofun
      | cons other second =>
          rw [EqualIgnoringCase, List.forall₂_cons, ← EqualIgnoringCase, ih, sameLetter_iff]
          simp only [toLower, List.map_cons, List.map_nil, List.cons.injEq, and_true]

/-- The keys of a map ascend. -/
def Ascending (headers : Headers) : Prop :=
  headers.Pairwise fun header later => header.1 < later.1

theorem lookup_cons_of_eq {key value : Bytes} (headers : Headers) :
    ((key, value) :: headers).lookup key = some value := by
  rw [List.lookup_cons, beq_self_eq_true]

theorem lookup_cons_of_ne {key other value : Bytes} (different : other ≠ key)
    (headers : Headers) : ((key, value) :: headers).lookup other = headers.lookup other := by
  rw [List.lookup_cons, beq_eq_false_iff_ne.mpr different]

/-- A key below all keys is not there. -/
theorem lookup_eq_none_of_lt {headers : Headers} {key : Bytes}
    (below : ∀ header ∈ headers, key < header.1) : headers.lookup key = none := by
  induction headers with
  | nil => rfl
  | cons header headers ih =>
      obtain ⟨first, value⟩ := header
      rw [List.forall_mem_cons] at below
      have different : key ≠ first := by
        rintro rfl
        exact List.lt_irrefl _ below.1
      rw [lookup_cons_of_ne different, ih below.2]

theorem mem_emplace {headers : Headers} {key value : Bytes} {header : Bytes × Bytes}
    (member : header ∈ emplace headers key value) : header = (key, value) ∨ header ∈ headers := by
  induction headers with
  | nil => exact .inl (List.mem_singleton.mp member)
  | cons present headers ih =>
      rw [emplace] at member
      split_ifs at member with equal less
      · exact .inr member
      · exact List.mem_cons.mp member
      · rcases List.mem_cons.mp member with rfl | later
        · exact .inr List.mem_cons_self
        · exact (ih later).imp_right (List.mem_cons_of_mem _)

theorem ascending_emplace {headers : Headers} (ascending : Ascending headers)
    (key value : Bytes) : Ascending (emplace headers key value) := by
  induction headers with
  | nil => exact List.pairwise_singleton _ _
  | cons header headers ih =>
      obtain ⟨first, present⟩ := header
      obtain ⟨above, rest⟩ := List.pairwise_cons.mp ascending
      rw [emplace]
      split_ifs with equal less
      · exact ascending
      · refine List.pairwise_cons.mpr ⟨?_, ascending⟩
        rw [List.forall_mem_cons]
        exact ⟨less, fun header member => List.lt_trans less (above header member)⟩
      · refine List.pairwise_cons.mpr ⟨?_, ih rest⟩
        intro header member
        rcases mem_emplace member with rfl | there
        · exact Std.lt_of_le_of_ne less (Ne.symm equal)
        · exact above header there

/-- `emplace` adds a key that is not there, and changes nothing else. -/
theorem lookup_emplace {headers : Headers} (ascending : Ascending headers)
    (key value other : Bytes) :
    (emplace headers key value).lookup other =
      (headers.lookup other).or (if key = other then some value else none) := by
  induction headers with
  | nil =>
      by_cases isKey : key = other
      · subst isKey
        rw [emplace, lookup_cons_of_eq, if_pos rfl]
        rfl
      · rw [emplace, lookup_cons_of_ne (Ne.symm isKey), if_neg isKey]
        rfl
  | cons header headers ih =>
      obtain ⟨first, present⟩ := header
      obtain ⟨above, rest⟩ := List.pairwise_cons.mp ascending
      rw [emplace]
      by_cases equal : key = first
      · subst equal
        rw [if_pos rfl]
        by_cases isKey : key = other
        · subst isKey
          rw [lookup_cons_of_eq, Option.some_or]
        · rw [if_neg isKey, Option.or_none]
      · rw [if_neg equal]
        by_cases less : key < first
        · rw [if_pos less]
          by_cases isKey : key = other
          · subst isKey
            have absent : ((first, present) :: headers).lookup key = none :=
              lookup_eq_none_of_lt <| List.forall_mem_cons.mpr
                ⟨less, fun header member => List.lt_trans less (above header member)⟩
            rw [lookup_cons_of_eq, if_pos rfl, absent, Option.none_or]
          · rw [lookup_cons_of_ne (Ne.symm isKey), if_neg isKey, Option.or_none]
        · rw [if_neg less]
          by_cases isFirst : other = first
          · subst isFirst
            rw [lookup_cons_of_eq, lookup_cons_of_eq, Option.some_or]
          · rw [lookup_cons_of_ne isFirst, lookup_cons_of_ne isFirst, ih rest]

/-- The loop over the fields of a response. -/
theorem lookup_foldl_emplace (fields : List (Bytes × Bytes)) {headers : Headers}
    (ascending : Ascending headers) (key : Bytes) :
    (fields.foldl (fun headers field => emplace headers (toLower field.1) field.2)
        headers).lookup key =
      (headers.lookup key).or
        ((fields.find? fun field => toLower field.1 = key).map Prod.snd) := by
  induction fields generalizing headers with
  | nil => exact Option.or_none.symm
  | cons field fields ih =>
      rw [List.foldl_cons, ih (ascending_emplace ascending _ _), lookup_emplace ascending,
        Option.or_assoc]
      congr 1
      by_cases isKey : toLower field.1 = key
      · rw [if_pos isKey, Option.some_or, List.find?_cons_of_pos (by simpa using isKey)]
        rfl
      · rw [if_neg isKey, Option.none_or, List.find?_cons_of_neg (by simpa using isKey)]

theorem header_toHttpResponse (method : Verb) (response : WireResponse) (key : Bytes) :
    (toHttpResponse method response).header key =
      ((response.fields.find? fun field => toLower field.1 = toLower key).map
        Prod.snd).getD [] := by
  rw [HttpResponse.header, toHttpResponse, lookup_foldl_emplace _ List.Pairwise.nil,
    List.lookup_nil, Option.none_or]

/-- The value belongs to the first field whose name is the key but for its
case. -/
def FirstField (fields : List (Bytes × Bytes)) (key value : Bytes) : Prop :=
  ∃ before name after, fields = before ++ (name, value) :: after ∧
    EqualIgnoringCase name key ∧ ∀ field ∈ before, ¬ EqualIgnoringCase field.1 key

theorem firstField_iff {fields : List (Bytes × Bytes)} {key value : Bytes} :
    FirstField fields key value ↔
      (fields.find? fun field => toLower field.1 = toLower key).map Prod.snd = some value := by
  simp only [Option.map_eq_some_iff, List.find?_eq_some_iff_append, decide_eq_true_eq,
    Bool.not_eq_true', decide_eq_false_iff_not]
  constructor
  · rintro ⟨before, name, after, shape, isKey, others⟩
    refine ⟨(name, value), ⟨equalIgnoringCase_iff.mp isKey, before, after, shape, ?_⟩, rfl⟩
    exact fun field member => mt equalIgnoringCase_iff.mpr (others field member)
  · rintro ⟨⟨name, found⟩, ⟨isKey, before, after, shape, others⟩, rfl⟩
    refine ⟨before, name, after, shape, equalIgnoringCase_iff.mpr isKey, ?_⟩
    exact fun field member => mt equalIgnoringCase_iff.mp (others field member)

theorem no_field_iff {fields : List (Bytes × Bytes)} {key : Bytes} :
    (∀ field ∈ fields, ¬ EqualIgnoringCase field.1 key) ↔
      (fields.find? fun field => toLower field.1 = toLower key).map Prod.snd = none := by
  simp only [Option.map_eq_none_iff, List.find?_eq_none, decide_eq_true_eq,
    equalIgnoringCase_iff]

/-- The lookup of a header gives the value of the first field of that name,
is empty exactly without such a field or with an empty value, and does not
depend on the case of the key. -/
theorem header_first_field (method : Verb) (response : WireResponse) (key : Bytes) :
    (∀ value, FirstField response.fields key value →
      (toHttpResponse method response).header key = value) ∧
    ((toHttpResponse method response).header key = [] ↔
      (∀ field ∈ response.fields, ¬ EqualIgnoringCase field.1 key) ∨
        FirstField response.fields key []) ∧
    (∀ other, EqualIgnoringCase key other →
      (toHttpResponse method response).header key =
        (toHttpResponse method response).header other) := by
  simp only [header_toHttpResponse, firstField_iff, no_field_iff]
  refine ⟨?_, ?_, ?_⟩
  · intro value found
    rw [found, Option.getD_some]
  · cases (response.fields.find? fun field => toLower field.1 = toLower key).map Prod.snd with
    | none => simp
    | some value => simp
  · intro other sameKey
    rw [equalIgnoringCase_iff.mp sameKey]

theorem header_first_field_location :
    (toHttpResponse .get
      { status := 302
        reason := []
        body := []
        fields :=
          [(ascii "Server", ascii "x"), (ascii "location", ascii "/a"),
            (ascii "LOCATION", ascii "/b")]
        keepAlive := true
        delimitedByClose := false }).header (ascii "Location") = ascii "/a" :=
  (header_first_field .get _ (ascii "Location")).1 (ascii "/a")
    ⟨[(ascii "Server", ascii "x")], ascii "location", [(ascii "LOCATION", ascii "/b")], rfl,
      equalIgnoringCase_iff.mpr (by decide),
      List.forall_mem_singleton.mpr (mt equalIgnoringCase_iff.mp (by decide))⟩

end HttpExchange

end ExchangeConnectivity
