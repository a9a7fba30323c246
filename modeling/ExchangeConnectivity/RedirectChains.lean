import Mathlib.Tactic.Common

/-!
# Chains of redirected requests

A request is answered by a response or fails; a response either ends the chain
or names the next request, as long as redirects remain.  This file defines the
chain a request starts, with the requests sent on it, over an arbitrary
exchange.
-/

namespace RedirectChains

variable {Request Response Failure : Type*}

/-- The requests sent from one request on, and how the chain ends.  `exchange`
is told how many redirects came before the request; `redirect` names the next
request of a response, if it is a redirect and may be followed. -/
def follow (exchange : Nat → Request → Except Failure Response)
    (redirect : Request → Response → Option (Except Failure Request)) :
    Nat → Nat → Request → List Request × Except Failure Response
  | 0, hop, request => ([request], exchange hop request)
  | remaining + 1, hop, request =>
      match exchange hop request with
      | .error failure => ([request], .error failure)
      | .ok response =>
          match redirect request response with
          | none => ([request], .ok response)
          | some (.error failure) => ([request], .error failure)
          | some (.ok next) =>
              let chain := follow exchange redirect remaining (hop + 1) next
              (request :: chain.1, chain.2)

variable {exchange : Nat → Request → Except Failure Response}
  {redirect : Request → Response → Option (Except Failure Request)}

theorem follow_zero (hop : Nat) (request : Request) :
    follow exchange redirect 0 hop request = ([request], exchange hop request) := by
  rw [follow]

theorem follow_of_final (remaining : Nat) {hop : Nat} {request : Request} {response : Response}
    (answered : exchange hop request = .ok response)
    (final : redirect request response = none) :
    follow exchange redirect remaining hop request = ([request], .ok response) := by
  cases remaining with
  | zero => rw [follow, answered]
  | succ remaining => rw [follow, answered]; dsimp only; rw [final]

theorem follow_of_refused (remaining : Nat) {hop : Nat} {request : Request}
    {response : Response} {failure : Failure} (answered : exchange hop request = .ok response)
    (refused : redirect request response = some (.error failure)) :
    follow exchange redirect (remaining + 1) hop request = ([request], .error failure) := by
  rw [follow, answered]
  dsimp only
  rw [refused]

theorem follow_of_redirect (remaining : Nat) {hop : Nat} {request next : Request}
    {response : Response} (answered : exchange hop request = .ok response)
    (redirected : redirect request response = some (.ok next)) :
    follow exchange redirect (remaining + 1) hop request =
      (request :: (follow exchange redirect remaining (hop + 1) next).1,
        (follow exchange redirect remaining (hop + 1) next).2) := by
  rw [follow, answered]
  dsimp only
  rw [redirected]

/-- A chain sends one request more than it may follow redirects, at most. -/
theorem follow_length_le (remaining hop : Nat) (request : Request) :
    (follow exchange redirect remaining hop request).1.length ≤ remaining + 1 := by
  induction remaining generalizing hop request with
  | zero => exact Nat.le_refl 1
  | succ remaining ih =>
      rw [follow]
      split
      · exact Nat.succ_le_succ (Nat.zero_le _)
      · split
        · exact Nat.succ_le_succ (Nat.zero_le _)
        · exact Nat.succ_le_succ (Nat.zero_le _)
        · exact Nat.succ_le_succ (ih (hop + 1) _)

/-- The exchanges redirect, one to the next, from the first request to the
last. -/
inductive Redirected (redirect : Request → Response → Option (Except Failure Request))
    (first : Request) : List (Request × Response) → Request → Prop
  | start : Redirected redirect first [] first
  | follow {exchanges : List (Request × Response)} {last next : Request} {response : Response}
      (before : Redirected redirect first exchanges last)
      (redirects : redirect last response = some (.ok next)) :
      Redirected redirect first (exchanges ++ [(last, response)]) next

section Redirected

variable {first last : Request} {exchanges : List (Request × Response)}

/-- What the first request has and every redirect keeps, the last one has. -/
theorem Redirected.last_of_kept (property : Request → Prop)
    (kept : ∀ request response next, redirect request response = some (.ok next) →
      property request → property next)
    (initially : property first) (redirected : Redirected redirect first exchanges last) :
    property last := by
  induction redirected with
  | start => exact initially
  | follow _ redirects ih => exact kept _ _ _ redirects ih

/-- What the first request has and every redirect keeps, all of them have. -/
theorem Redirected.all_of_kept (property : Request → Prop)
    (kept : ∀ request response next, redirect request response = some (.ok next) →
      property request → property next)
    (initially : property first) (redirected : Redirected redirect first exchanges last) :
    ∀ request ∈ exchanges.map Prod.fst ++ [last], property request := by
  have atLast := redirected.last_of_kept property kept initially
  induction redirected with
  | start => simpa using atLast
  | follow before redirects ih =>
      have earlier := ih (before.last_of_kept property kept initially)
      intro request member
      rw [List.map_append, List.map_singleton, List.mem_append, List.mem_singleton] at member
      rcases member with member | rfl
      · exact earlier request member
      · exact atLast

theorem Redirected.head (redirected : Redirected redirect first exchanges last) :
    (exchanges.map Prod.fst ++ [last])[0]? = some first := by
  induction redirected with
  | start => rfl
  | follow before redirects ih =>
      rw [List.map_append, List.map_singleton, List.getElem?_append_left (by simp), ih]

/-- Each request but the first is named by the response to the one before. -/
theorem Redirected.linked (redirected : Redirected redirect first exchanges last) {index : Nat}
    {request : Request} (found : (exchanges.map Prod.fst ++ [last])[index + 1]? = some request) :
    ∃ earlier response, exchanges[index]? = some (earlier, response) ∧
      redirect earlier response = some (.ok request) := by
  induction redirected with
  | start => simp at found
  | @follow exchanges last next response before redirects ih =>
      have inside := (List.getElem?_eq_some_iff.mp found).1
      rw [List.length_append, List.length_map, List.length_append, List.length_singleton,
        List.length_singleton] at inside
      by_cases atEnd : index = exchanges.length
      · subst atEnd
        rw [List.getElem?_append_right (by simp)] at found
        obtain rfl : next = request := by simpa using found
        exact ⟨last, response, by simp, redirects⟩
      · rw [List.map_append, List.map_singleton, List.getElem?_append_left (by simp; omega)]
          at found
        obtain ⟨earlier, answer, exchanged, names⟩ := ih found
        refine ⟨earlier, answer, ?_, names⟩
        rw [List.getElem?_append_left (by omega), exchanged]

end Redirected

end RedirectChains
