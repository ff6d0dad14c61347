/-!
# Searching by halves

Where the items that pass a test come before all that do not, a search by halves finds how many of
them there are. On other items the search still ends, at a place that only its own steps explain.
-/
namespace CrashDump.Search

/-- Searches `count` items from number `first` on by halves, for the end of those that pass a
test. -/
def searchIn {α : Type} (test : α → Bool) (items : Array α) (first count : Nat) : Nat :=
  if count ≤ 1 then if items[first]?.any test then first + 1 else first
  else
    let half := count / 2
    if items[first + half]?.any test then searchIn test items (first + half) (count - half)
    else searchIn test items first (count - half)
termination_by count

def boundary {α : Type} (test : α → Bool) (items : Array α) : Nat :=
  searchIn test items 0 items.size

/-- The items from the place on that the search for the end of those that pass a test leads to. -/
def dropPassing {α : Type} (test : α → Bool) (items : List α) : List α :=
  items.drop (boundary test items.toArray)

variable {α : Type} {test : α → Bool}

/-- The search stops at a place before which all pass and from which none does, if there is one. -/
theorem searchIn_eq {items : Array α} {place first count : Nat}
    (passing : ∀ i < place, items[i]?.any test = true)
    (failing : ∀ i ≥ place, items[i]?.any test = false) (hf : first ≤ place)
    (hp : place ≤ first + count) : searchIn test items first count = place := by
  fun_induction searchIn test items first count with
  | case1 first count hc ht =>
    have : ¬ place ≤ first := fun h => by simp [failing first h] at ht
    omega
  | case2 first count hc ht =>
    have : ¬ first < place := fun h => ht (passing first h)
    omega
  | case3 first count hc half ht ih =>
    have : ¬ place ≤ first + half := fun h => by simp [failing _ h] at ht
    exact ih (by omega) (by omega)
  | case4 first count hc half ht ih =>
    have : ¬ first + half < place := fun h => ht (passing _ h)
    exact ih hf (by omega)

/-- The search does not leave the items. -/
theorem searchIn_le {items : Array α} {first count : Nat} (h : first + count ≤ items.size) :
    searchIn test items first count ≤ items.size := by
  fun_induction searchIn test items first count with
  | case1 first count hc ht =>
    have : ¬ items.size ≤ first := fun hge => by simp [Array.getElem?_eq_none hge] at ht
    omega
  | case2 first count hc ht => omega
  | case3 first count hc half ht ih => exact ih (by omega)
  | case4 first count hc half ht ih => exact ih (by omega)

theorem boundary_le (test : α → Bool) (items : Array α) : boundary test items ≤ items.size :=
  searchIn_le (Nat.le_of_eq (Nat.zero_add _))

/-- Where the items that pass come first, their end is found. -/
theorem boundary_append {front back : List α} (hf : ∀ x ∈ front, test x = true)
    (hb : ∀ x ∈ back, test x = false) : boundary test (front ++ back).toArray = front.length := by
  refine searchIn_eq (fun i hi => ?_) (fun i hi => ?_) (Nat.zero_le _) (by simp)
  · rw [List.getElem?_toArray, List.getElem?_append_left hi, List.getElem?_eq_getElem hi]
    exact hf _ (List.getElem_mem hi)
  · rw [List.getElem?_toArray, List.getElem?_append_right hi]
    cases h : back[i - front.length]? with
    | none => rfl
    | some x => exact hb x (List.mem_of_getElem? h)

/-- Where an item passes only if those before it do, the search splits the items into those that
pass and those that do not. -/
theorem exists_boundary {items : List α}
    (h : items.Pairwise fun x y => test y = true → test x = true) :
    ∃ front back, items = front ++ back ∧ boundary test items.toArray = front.length ∧
      (∀ x ∈ front, test x = true) ∧ ∀ x ∈ back, test x = false := by
  have split : ∃ front back, items = front ++ back ∧
      (∀ x ∈ front, test x = true) ∧ ∀ x ∈ back, test x = false := by
    induction items with
    | nil => exact ⟨[], [], rfl, by simp, by simp⟩
    | cons x items ih =>
      obtain ⟨hx, hitems⟩ := List.pairwise_cons.1 h
      cases ht : test x with
      | true =>
        obtain ⟨front, back, rfl, hf, hb⟩ := ih hitems
        exact ⟨x :: front, back, rfl, by simpa [ht] using hf, hb⟩
      | false =>
        refine ⟨[], x :: items, rfl, by simp, fun y hy => ?_⟩
        rcases List.mem_cons.1 hy with rfl | hy
        · exact ht
        · exact Bool.eq_false_iff.2 fun hty => by simp [hx y hy hty] at ht
  obtain ⟨front, back, rfl, hf, hb⟩ := split
  exact ⟨front, back, rfl, boundary_append hf hb, hf, hb⟩

end CrashDump.Search
