import CrashDump.Module.Listing
import CrashDump.Proofs.Outcome
import CrashDump.Proofs.Separation

/-!
# Looking up modules by address

A lookup asks one module only, the last one that starts at or before the address. Another module can
reach over that one, and then an address after the end of the inner module is not found in the outer
one.
-/
namespace CrashDump

theorem Module.contains_eq_true_iff {m : Module} {a : Address} :
    m.contains a = true ↔ m.base ≤ a ∧ a < m.range.stop := Interval.contains_iff

theorem Module.not_contains_of_lt {m : Module} {a : Address} (h : a < m.base) :
    m.contains a = false := Interval.contains_eq_false_iff.2 (.inl h)

namespace ModuleList

variable {list : ModuleList} {a : Address} {m n : Module} {front back : List Module}

/-- The lists that can be made, out of modules or out of a dump. -/
inductive Built : ModuleList → Prop
  | ofList (modules : List Module) : Built (ofList modules)
  | ofContainer {c : Container} {platform : Platform} {disk : Disk} {directories : List String}
      {list : ModuleList} {reports : List Diagnostic}
      (h : ofContainer c platform disk directories = .ok (list, reports)) : Built list

def Ascending (modules : List Module) : Prop := modules.Pairwise fun m n => m.base ≤ n.base

instance (modules : List Module) : Decidable (Ascending modules) :=
  inferInstanceAs (Decidable (modules.Pairwise fun m n => m.base ≤ n.base))

theorem base_le_trans (l m n : Module) (hlm : decide (l.base ≤ m.base) = true)
    (hmn : decide (m.base ≤ n.base) = true) : decide (l.base ≤ n.base) = true :=
  decide_eq_true (Nat.le_trans (of_decide_eq_true hlm) (of_decide_eq_true hmn))

theorem base_le_total (m n : Module) :
    (decide (m.base ≤ n.base) || decide (n.base ≤ m.base)) = true := by
  rw [Bool.or_eq_true, decide_eq_true_eq, decide_eq_true_eq]
  exact Nat.le_total _ _

theorem ascending_ofList (modules : List Module) : Ascending (ofList modules).modules :=
  (List.pairwise_mergeSort base_le_trans base_le_total modules).imp of_decide_eq_true

theorem built_of_ascending {modules : List Module} (h : Ascending modules) :
    (ModuleList.mk modules).Built := by
  have hsort : ofList modules = ⟨modules⟩ :=
    congrArg ModuleList.mk (List.mergeSort_of_pairwise (h.imp decide_eq_true))
  rw [← hsort]
  exact .ofList modules

theorem keepFirst_sublist (seen : List String) (modules : List Module) :
    (keepFirst seen modules).1.Sublist modules := by
  induction modules generalizing seen with
  | nil => exact List.Sublist.refl []
  | cons m rest ih =>
    unfold keepFirst
    split
    · exact (ih seen).cons m
    · exact (ih (m.path :: seen)).cons_cons m

/-- What a list out of a dump is made of: the modules of the records, in order of their bases, of
which all but the first of each path are left out where the system lists them for each mapping. -/
theorem ofContainer_cases {c : Container} {platform : Platform} {disk : Disk}
    {directories : List String} {reports : List Diagnostic}
    (h : ofContainer c platform disk directories = .ok (list, reports)) :
    ∃ records resolved, c.modules = .ok records ∧
      records.mapM (Module.ofRecord c disk directories) = .ok resolved ∧
      ((platform.repeatsModules = true ∧
          list = (ofList (resolved.map Prod.fst)).withoutRepeats.1 ∧
          reports = resolved.flatMap Prod.snd ++
            (ofList (resolved.map Prod.fst)).withoutRepeats.2) ∨
        platform.repeatsModules = false ∧ list = ofList (resolved.map Prod.fst) ∧
          reports = resolved.flatMap Prod.snd) := by
  obtain ⟨records, hrecords, h⟩ := bind_eq_ok.1 h
  obtain ⟨resolved, hresolved, h⟩ := bind_eq_ok.1 h
  refine ⟨records, resolved, hrecords, hresolved, ?_⟩
  split at h
  · next hrepeats =>
    obtain ⟨rfl, rfl⟩ := Prod.mk.inj (Except.ok.inj h)
    exact .inl ⟨hrepeats, rfl, rfl⟩
  · next hrepeats =>
    obtain ⟨rfl, rfl⟩ := Prod.mk.inj (Except.ok.inj h)
    exact .inr ⟨Bool.eq_false_iff.2 hrepeats, rfl, rfl⟩

theorem Built.ascending (h : list.Built) : Ascending list.modules := by
  cases h with
  | ofList modules => exact ascending_ofList modules
  | ofContainer h =>
    obtain ⟨_, _, _, _, ⟨_, rfl, _⟩ | ⟨_, rfl, _⟩⟩ := ofContainer_cases h
    · exact (ascending_ofList _).sublist (keepFirst_sublist [] _)
    · exact ascending_ofList _

theorem takeWhile_of_split (hf : ∀ m ∈ front, m.base ≤ a) (hb : ∀ m ∈ back, a < m.base) :
    (front ++ back).takeWhile (fun m => decide (m.base ≤ a)) = front := by
  have hback : back.takeWhile (fun m => decide (m.base ≤ a)) = [] := by
    cases back with
    | nil => rfl
    | cons m rest =>
      have hm := hb m List.mem_cons_self
      rw [Address.lt_def] at hm
      rw [List.takeWhile_cons_of_neg]
      rw [decide_eq_true_eq, Address.le_def]
      omega
  rw [List.takeWhile_append_of_pos fun m hm => decide_eq_true (hf m hm), hback, List.append_nil]

/-- The module that a lookup asks. -/
theorem at?_of_split (hf : ∀ m ∈ front, m.base ≤ a) (hn : n.base ≤ a)
    (hb : ∀ m ∈ back, a < m.base) (hsplit : list.modules = front ++ n :: back) :
    list.at? a = if n.contains a then some n else none := by
  have hfront : ∀ m ∈ front ++ [n], m.base ≤ a := by
    intro m hm
    rcases List.mem_append.1 hm with hm | hm
    · exact hf m hm
    · rwa [List.mem_singleton.1 hm]
  rw [at?, hsplit, List.append_cons, takeWhile_of_split hfront hb, List.getLast?_concat]
  rfl

theorem exists_boundary (h : Ascending list.modules) (a : Address) :
    ∃ before after, list.modules = before ++ after ∧
      Search.boundary (fun m => m.base ≤ a) list.modules.toArray = before.length ∧
      (∀ m ∈ before, m.base ≤ a) ∧ ∀ m ∈ after, a < m.base := by
  have hmono : list.modules.Pairwise fun m n =>
      decide (n.base ≤ a) = true → decide (m.base ≤ a) = true := by
    refine h.imp fun {m n} hmn hle => ?_
    rw [Address.le_def] at hmn
    rw [decide_eq_true_eq, Address.le_def] at hle ⊢
    omega
  obtain ⟨before, after, hsplit, hplace, hbefore, hafter⟩ := Search.exists_boundary hmono
  exact ⟨before, after, hsplit, hplace, fun m hm => of_decide_eq_true (hbefore m hm), fun m hm =>
    Address.lt_def.2 (Nat.lt_of_not_le (of_decide_eq_false (hafter m hm)))⟩

/-- A search by halves finds the module that a lookup asks. -/
theorem at?_eq_search (h : Ascending list.modules) (a : Address) :
    list.at? a = (list.modules.take (Search.boundary (fun m => m.base ≤ a)
      list.modules.toArray)).getLast?.filter fun m => m.contains a := by
  obtain ⟨before, after, hsplit, hplace, hbefore, hafter⟩ := exists_boundary h a
  rw [at?, hplace, hsplit, takeWhile_of_split hbefore hafter, List.take_left]

theorem exists_split (h : Ascending list.modules) (a : Address) :
    (∀ m ∈ list.modules, a < m.base) ∨
      ∃ front n back, list.modules = front ++ n :: back ∧ (∀ m ∈ front, m.base ≤ a) ∧
        n.base ≤ a ∧ ∀ m ∈ back, a < m.base := by
  obtain ⟨before, after, hsplit, _, hbefore, hback⟩ := exists_boundary h a
  rcases List.eq_nil_or_concat before with rfl | ⟨front, n, rfl⟩
  · rw [hsplit]
    exact .inl hback
  · exact .inr ⟨front, n, after, by simpa using hsplit, fun m hm => hbefore m (by simp [hm]),
      hbefore n (by simp), hback⟩

theorem at?_sound (h : list.at? a = some m) : m ∈ list.modules ∧ m.contains a = true := by
  obtain ⟨hlast, hm⟩ := Option.filter_eq_some_iff.1 h
  exact ⟨(List.takeWhile_sublist _).subset (List.mem_of_getLast? hlast), hm⟩

/-- The module that a lookup asks has ended, but one before it has not. -/
def Hides (list : ModuleList) (a : Address) : Prop :=
  ∃ front n back, list.modules = front ++ n :: back ∧ n.base ≤ a ∧ (∀ m ∈ back, a < m.base) ∧
    n.contains a = false ∧ ∃ m ∈ front, m.contains a = true

theorem at?_eq_none_iff (h : Ascending list.modules) :
    list.at? a = none ↔ (∀ m ∈ list.modules, m.contains a = false) ∨ list.Hides a := by
  constructor
  · intro hnone
    rcases exists_split h a with hafter | ⟨front, n, back, hsplit, hf, hn, hb⟩
    · exact .inl fun m hm => Module.not_contains_of_lt (hafter m hm)
    · rw [at?_of_split hf hn hb hsplit, ite_eq_right_iff] at hnone
      have hno : n.contains a = false :=
        Bool.eq_false_iff.2 fun hc => Option.some_ne_none n (hnone hc)
      by_cases hfront : ∃ m ∈ front, m.contains a = true
      · exact .inr ⟨front, n, back, hsplit, hn, hb, hno, hfront⟩
      · refine .inl fun m hm => ?_
        rw [hsplit, List.mem_append, List.mem_cons] at hm
        rcases hm with hm | rfl | hm
        · exact Bool.eq_false_iff.2 fun hc => hfront ⟨m, hm, hc⟩
        · exact hno
        · exact Module.not_contains_of_lt (hb m hm)
  · rintro (hno | ⟨front, n, back, hsplit, hn, hb, hno, _⟩)
    · refine Option.eq_none_iff_forall_ne_some.2 fun m hm => ?_
      obtain ⟨hmem, hc⟩ := at?_sound hm
      rw [hno m hmem] at hc
      exact Bool.noConfusion hc
    · have hf : ∀ m ∈ front, m.base ≤ a := by
        intro m hm
        rw [hsplit] at h
        have hle := (List.pairwise_append.1 h).2.2 m hm n List.mem_cons_self
        exact Nat.le_trans hle hn
      rw [at?_of_split hf hn hb hsplit, hno]
      rfl

/-- No module ends inside one that starts before it. -/
def Unnested (list : ModuleList) : Prop :=
  list.modules.Pairwise fun m n => m.range.stop ≤ n.base ∨ m.range.stop ≤ n.range.stop

instance (list : ModuleList) : Decidable list.Unnested :=
  inferInstanceAs (Decidable (list.modules.Pairwise fun m n =>
    m.range.stop ≤ n.base ∨ m.range.stop ≤ n.range.stop))

theorem Unnested.not_hides (h : list.Unnested) : ¬list.Hides a := by
  rintro ⟨front, n, back, hsplit, hn, _, hno, m, hm, hc⟩
  rw [Unnested, hsplit] at h
  have hmn := (List.pairwise_append.1 h).2.2 m hm n List.mem_cons_self
  rw [Module.contains_eq_true_iff, Address.lt_def] at hc
  have hlt : ¬n.contains a = true := by simp [hno]
  rw [Module.contains_eq_true_iff, Address.lt_def] at hlt
  rw [Address.le_def] at hn hmn hlt
  rw [Address.le_def] at hmn
  omega

theorem Unnested.exists_at? (hu : list.Unnested) (h : Ascending list.modules)
    (hm : m ∈ list.modules) (hc : m.contains a = true) : ∃ n, list.at? a = some n := by
  refine Option.ne_none_iff_exists'.1 fun hnone => ?_
  rcases (at?_eq_none_iff h).1 hnone with hno | hhides
  · rw [hno m hm] at hc
    exact Bool.noConfusion hc
  · exact hu.not_hides hhides

theorem separated_of_apart (h : Ascending list.modules)
    (hn : ∀ m ∈ list.modules, m.range.isEmpty = false)
    (ha : list.modules.Pairwise fun m n => m.range.Apart n.range) :
    Interval.Separated (list.modules.map Module.range) :=
  Interval.Separated.of_sorted (by simpa using hn) (List.pairwise_map.2 h) (List.pairwise_map.2 ha)

theorem unnested_of_separated (h : Interval.Separated (list.modules.map Module.range)) :
    list.Unnested := by
  have hordered := List.pairwise_map.1 h.ordered
  exact hordered.imp .inl

/-- Among modules that share no address a lookup finds the only one that holds the address. -/
theorem at?_eq_some_iff (h : Interval.Separated (list.modules.map Module.range)) :
    list.at? a = some m ↔ m ∈ list.modules ∧ m.contains a = true := by
  have hascending : Ascending list.modules :=
    (List.pairwise_map.1 h.ascending).imp fun hlt => Nat.le_of_lt hlt
  refine ⟨at?_sound, fun ⟨hm, hc⟩ => ?_⟩
  obtain ⟨n, hn⟩ := (unnested_of_separated h).exists_at? hascending hm hc
  obtain ⟨hnm, hnc⟩ := at?_sound hn
  rw [hn, h.eq_of_contains hnm hm hnc hc]

/-- A lookup gives a module of the list that holds the address. It gives none where none does, and
where the module that it asks lies inside an earlier one that does. -/
theorem lookup_exact (h : list.Built) :
    (∀ a m, list.at? a = some m → m ∈ list.modules ∧ m.contains a = true) ∧
    (∀ a, list.at? a = none ↔
      (∀ m ∈ list.modules, m.contains a = false) ∨ list.Hides a) ∧
    (list.Unnested → ∀ a, (∃ m, list.at? a = some m) ↔
      ∃ m ∈ list.modules, m.contains a = true) := by
  refine ⟨fun a m => at?_sound, fun a => at?_eq_none_iff h.ascending, fun hu a => ?_⟩
  constructor
  · rintro ⟨m, hm⟩
    exact ⟨m, at?_sound hm⟩
  · rintro ⟨m, hm, hc⟩
    exact hu.exists_at? h.ascending hm hc

/-- Two modules, the second of which starts in the first and reaches further. -/
theorem lookup_exact_overlapping :
    let first : Module := ⟨"/first", ⟨0x1000⟩, 0x2000, "", "", none, 0, 0, none, none⟩
    let second : Module := ⟨"/second", ⟨0x2000⟩, 0x2000, "", "", none, 0, 0, none, none⟩
    let list := ModuleList.mk [first, second]
    list.Built ∧ list.Unnested ∧ (∃ m, list.at? ⟨0x2800⟩ = some m) ∧
      list.at? ⟨0x4000⟩ = none := by
  intro first second list
  have hbuilt : list.Built := built_of_ascending (by decide)
  have hunnested : list.Unnested := by decide
  obtain ⟨_, hnone, hsome⟩ := lookup_exact hbuilt
  exact ⟨hbuilt, hunnested, (hsome hunnested _).2 ⟨second, by decide, by decide⟩,
    (hnone _).2 (.inl (by decide))⟩

/-- The addresses after a module inside another one are in the outer module and are not found. -/
theorem lookup_hides_outer :
    let outer : Module := ⟨"/outer", ⟨0x1000⟩, 0x4000, "", "", none, 0, 0, none, none⟩
    let inner : Module := ⟨"/inner", ⟨0x2000⟩, 0x1000, "", "", none, 0, 0, none, none⟩
    let list := ModuleList.mk [outer, inner]
    list.Built ∧ outer ∈ list.modules ∧ outer.contains ⟨0x4000⟩ = true ∧
      list.at? ⟨0x4000⟩ = none := by
  intro outer inner list
  exact ⟨built_of_ascending (by decide), by decide, by decide, by decide⟩

end ModuleList
end CrashDump
