import CrashDump.Proofs.IntervalUnion
import CrashDump.Proofs.RegionTiling

/-!
# Inferring code from modules

A map made from captured memory alone says of every captured byte that it can be read, and that it
can be executed exactly if some module holds code there.
-/
namespace CrashDump

theorem Address.le_saturatingAdd (a : Address) (n : Nat) : a ≤ a.saturatingAdd n := by
  unfold saturatingAdd
  cases h : a.add? n with
  | none =>
    have ha := a.toNat_lt
    rw [Address.le_def]
    change a.toNat ≤ UInt64.size - 1
    omega
  | some b =>
    rw [Address.add?_eq_some_iff] at h
    exact Address.le_def.2 (by simp only [Option.getD_some]; omega)

/-- The end of a module is where its size says, or at the highest address. -/
theorem Module.toNat_stop_range (m : Module) :
    m.range.stop.toNat = min (m.base.toNat + m.size.toNat) (2 ^ 64 - 1) := by
  change ((m.base.add? m.size.toNat).getD Address.top).toNat = _
  cases h : m.base.add? m.size.toNat with
  | none =>
    simp only [Address.add?, ite_eq_right_iff, reduceCtorEq, imp_false, Nat.not_lt] at h
    change 2 ^ 64 - 1 = _
    change 2 ^ 64 ≤ _ at h
    omega
  | some b =>
    have hlt := b.toNat_lt
    rw [Address.add?_eq_some_iff] at h
    change b.toNat < 2 ^ 64 at hlt
    change b.toNat = _
    omega

/-- A module holds code where its image says, and anywhere if no image says so. -/
theorem Module.executableRanges_cases (m : Module) :
    (m.executableRanges = [m.range] ∧ ∀ image, m.image = some image → image.executable = []) ∨
      ∃ image, m.image = some image ∧ image.executable ≠ [] ∧
        m.executableRanges = image.executable := by
  unfold executableRanges
  cases m.image with
  | none => exact .inl ⟨rfl, nofun⟩
  | some image =>
    by_cases hnone : image.executable = []
    · refine .inl ⟨by simp [hnone], ?_⟩
      rintro _ ⟨⟩
      exact hnone
    · exact .inr ⟨image, rfl, hnone, by simp [hnone]⟩

theorem Module.upright_executableRanges {m : Module}
    (h : ∀ image ∈ m.image, ∀ r ∈ image.executable, r.start ≤ r.stop) :
    ∀ r ∈ m.executableRanges, r.start ≤ r.stop := by
  have hrange : m.range.start ≤ m.range.stop := Address.le_saturatingAdd _ _
  intro r hr
  unfold executableRanges at hr
  split at hr
  · rwa [List.mem_singleton.1 hr]
  · next image himage =>
    split at hr
    · rwa [List.mem_singleton.1 hr]
    · exact h image himage r hr

namespace ModuleList

variable {modules : ModuleList} {a : Address}

theorem contains_executableRanges :
    (∃ r ∈ modules.executableRanges, r.contains a = true) ↔
      ∃ m ∈ modules.modules, ∃ r ∈ m.executableRanges, r.contains a = true := by
  rw [executableRanges, Interval.contains_union]
  constructor
  · rintro ⟨r, hr, ha⟩
    obtain ⟨m, hm, hr⟩ := List.mem_flatMap.1 hr
    exact ⟨m, hm, r, hr, ha⟩
  · rintro ⟨m, hm, r, hr, ha⟩
    exact ⟨r, List.mem_flatMap.2 ⟨m, hm, hr⟩, ha⟩

theorem spaced_of_upright
    (h : ∀ m ∈ modules.modules, ∀ r ∈ m.executableRanges, r.start ≤ r.stop) :
    Interval.Spaced modules.executableRanges := by
  apply Interval.spaced_union
  intro r hr
  obtain ⟨m, hm, hr⟩ := List.mem_flatMap.1 hr
  exact h m hm r hr

theorem spaced_executableRanges
    (h : ∀ m ∈ modules.modules, ∀ image ∈ m.image, ∀ r ∈ image.executable, r.start ≤ r.stop) :
    Interval.Spaced modules.executableRanges :=
  spaced_of_upright fun m hm => Module.upright_executableRanges (h m hm)

/-- The merged ranges are sorted, with a gap between any two, and hold the addresses where some
module holds code. They are a normal form: but for empty ranges, these addresses tell what they
are. -/
theorem merged_ranges_exact :
    (∀ list : ModuleList,
      (list.executableRanges.Pairwise fun r s => r.start ≤ s.start ∧ r.stop < s.start) ∧
      ∀ a, (∃ r ∈ list.executableRanges, r.contains a = true) ↔
        ∃ m ∈ list.modules, ∃ r ∈ m.executableRanges, r.contains a = true) ∧
    (∀ m : Module, m.range.start = m.base ∧
      m.range.stop.toNat = min (m.base.toNat + m.size.toNat) (2 ^ 64 - 1) ∧
      ((m.executableRanges = [m.range] ∧ ∀ image, m.image = some image → image.executable = []) ∨
        ∃ image, m.image = some image ∧ image.executable ≠ [] ∧
          m.executableRanges = image.executable)) ∧
    ∀ list other : ModuleList,
      (∀ a, (∃ m ∈ list.modules, ∃ r ∈ m.executableRanges, r.contains a = true) ↔
        ∃ m ∈ other.modules, ∃ r ∈ m.executableRanges, r.contains a = true) →
      (list.executableRanges.filter fun r => !r.isEmpty) =
        other.executableRanges.filter fun r => !r.isEmpty := by
  refine ⟨fun list => ⟨Interval.pairwise_union _, fun a => contains_executableRanges⟩,
    fun m => ⟨rfl, m.toNat_stop_range, m.executableRanges_cases⟩, fun list other hsame => ?_⟩
  refine Interval.union_unique fun a => ?_
  refine Interval.contains_union.symm.trans (Iff.trans ?_ Interval.contains_union)
  exact contains_executableRanges.trans ((hsame a).trans contains_executableRanges.symm)

/-- Two modules that touch, with an empty one inside, hold code where one module over both does. -/
theorem merged_ranges_exact_touching :
    let first : Module := ⟨"a", ⟨0x10⟩, 4, "", "", none, 0, 0, none, none⟩
    let empty : Module := ⟨"b", ⟨0x12⟩, 0, "", "", none, 0, 0, none, none⟩
    let second : Module := ⟨"c", ⟨0x14⟩, 4, "", "", none, 0, 0, none, none⟩
    let whole : Module := ⟨"d", ⟨0x10⟩, 8, "", "", none, 0, 0, none, none⟩
    ((ModuleList.mk [first, empty, second]).executableRanges.filter fun r => !r.isEmpty) =
      (ModuleList.mk [whole]).executableRanges.filter fun r => !r.isEmpty := by
  intro first empty second whole
  refine merged_ranges_exact.2.2 _ _ fun a => ?_
  have hfirst : first.executableRanges = [⟨⟨0x10⟩, ⟨0x14⟩⟩] := by decide
  have hempty : empty.executableRanges = [⟨⟨0x12⟩, ⟨0x12⟩⟩] := by decide
  have hsecond : second.executableRanges = [⟨⟨0x14⟩, ⟨0x18⟩⟩] := by decide
  have hwhole : whole.executableRanges = [⟨⟨0x10⟩, ⟨0x18⟩⟩] := by decide
  simp only [List.mem_cons, List.not_mem_nil, or_false, exists_eq_or_imp, exists_eq_left, hfirst,
    hempty, hsecond, hwhole, Interval.contains_iff]
  change (0x10 ≤ a.toNat ∧ a.toNat < 0x14 ∨ 0x12 ≤ a.toNat ∧ a.toNat < 0x12 ∨
    0x14 ≤ a.toNat ∧ a.toNat < 0x18) ↔ 0x10 ≤ a.toNat ∧ a.toNat < 0x18
  omega

end ModuleList

namespace RegionMap

variable {captured : Captured} {modules : ModuleList}

/-- What captured memory shows is code exactly where the modules hold code. -/
theorem permissions_of_mem_shown (h : Interval.Spaced modules.executableRanges) {m : Mapping}
    {a : Address} (hm : m ∈ shown captured modules) (ha : m.range.contains a = true) :
    m.permissions.read = true ∧ m.permissions.write = false ∧
      (m.permissions.execute = true ↔
        ∃ r ∈ modules.executableRanges, r.contains a = true) := by
  obtain ⟨r, _, p, hp, rfl⟩ := mem_shown.1 hm
  have hstart : r.start ≤ a := ((Interval.contains_cutAt _).1 ⟨p, hp, ha⟩).1
  refine ⟨rfl, rfl, ?_⟩
  rw [← h.exists_contains_dropPassing hstart]
  exact Interval.isCode_of_mem_cutAt (h.dropPassing _).ascending hp ha

/-- Without lists of the system every captured byte is mapped and readable, and it can be executed
exactly if a module holds code there. -/
theorem captured_exact (hc : captured.Reachable)
    (hm : ∀ m ∈ modules.modules, ∀ image ∈ m.image, ∀ r ∈ image.executable, r.start ≤ r.stop) :
    ∃ map, build none none captured modules = .ok map ∧ map.source = .captured ∧
      ∀ a, ((map.regionAt a).isMapped = true ↔ (captured.byteAt? a).isSome = true) ∧
        ((captured.byteAt? a).isSome = true →
          (map.regionAt a).permissions.read = true ∧
          (map.regionAt a).permissions.write = false ∧
          ((map.regionAt a).permissions.execute = true ↔
            ∃ m ∈ modules.modules, ∃ r ∈ m.executableRanges, r.contains a = true)) := by
  have hcaptured := hc.wellFormed
  have hmap : build none none captured modules = .ok ⟨.captured, shown captured modules⟩ :=
    build_of_captured hcaptured.separated
  have hsep := build_separated hcaptured.separated hmap
  refine ⟨_, hmap, rfl, fun a => ⟨?_, fun ha => ?_⟩⟩
  · rw [isMapped_regionAt hsep, contains_shown, hcaptured.byteAt?_isSome_iff]
  · rw [hcaptured.byteAt?_isSome_iff] at ha
    obtain ⟨m, hshown, hma⟩ := contains_shown.2 ha
    rw [regionAt_eq_mapping hsep hshown hma, ← ModuleList.contains_executableRanges]
    exact permissions_of_mem_shown (ModuleList.spaced_executableRanges hm) hshown hma

/-- A module without an image, an empty one where it ends, and one whose image has code in two
places, all in one captured interval. -/
theorem captured_exact_three :
    let plain : Module := ⟨"a", ⟨0x12⟩, 2, "", "", none, 0, 0, none, none⟩
    let empty : Module := ⟨"b", ⟨0x14⟩, 0, "", "", none, 0, 0, none, none⟩
    let image : Image := ⟨"c", none, [⟨⟨0x15⟩, ⟨0x16⟩⟩, ⟨⟨0x17⟩, ⟨0x20⟩⟩]⟩
    let loaded : Module := ⟨"c", ⟨0x14⟩, 8, "", "", none, 0, 0, none, some image⟩
    let captured := Captured.empty.add ⟨⟨⟨0x10⟩, ⟨0x18⟩⟩, Buffer.ofBytes [1, 2, 3, 4, 5, 6, 7, 8]⟩
    ∃ map, build none none captured ⟨[plain, empty, loaded]⟩ = .ok map ∧
      (map.regionAt ⟨0x18⟩).isMapped = false ∧
      (map.regionAt ⟨0x13⟩).permissions.execute = true ∧
      (map.regionAt ⟨0x14⟩).permissions.execute = false ∧
      (map.regionAt ⟨0x17⟩).permissions.execute = true := by
  intro plain empty image loaded captured
  have hc : captured.Reachable := .add .empty (by decide)
  have hm : ∀ m ∈ (ModuleList.mk [plain, empty, loaded]).modules, ∀ image ∈ m.image,
      ∀ r ∈ image.executable, r.start ≤ r.stop := by
    decide
  obtain ⟨map, hmap, _, hexact⟩ := captured_exact hc hm
  refine ⟨map, hmap, ?_, ?_, ?_, ?_⟩
  · rw [← Bool.not_eq_true, (hexact ⟨0x18⟩).1]
    decide +kernel
  · rw [((hexact ⟨0x13⟩).2 (by decide +kernel)).2.2]
    decide
  · rw [← Bool.not_eq_true, ((hexact ⟨0x14⟩).2 (by decide +kernel)).2.2]
    decide
  · rw [((hexact ⟨0x17⟩).2 (by decide +kernel)).2.2]
    decide

end RegionMap
end CrashDump
