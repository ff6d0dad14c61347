import CrashDump.Proofs.CodeInference
import CrashDump.Proofs.ModuleLookup

/-!
# Names of inferred regions

What captured memory shows is named after the module at its first byte. It is cut where code begins
and ends and not where modules do, so the name is right up to the first bound of a module that is no
bound of code.
-/
namespace CrashDump

/-- Addresses in a row that intervals with gaps between them hold are all in one of them. -/
theorem Interval.Spaced.exists_contains_both {ranges : List Interval} {first last : Address}
    (h : Spaced ranges) (hle : first ≤ last)
    (hcovered : ∀ a, first ≤ a → a ≤ last → ∃ r ∈ ranges, r.contains a = true) :
    ∃ r ∈ ranges, r.contains first = true ∧ r.contains last = true := by
  induction ranges with
  | nil => simpa using hcovered first (Nat.le_refl _) hle
  | cons r rest ih =>
    obtain ⟨hgap, hgaps⟩ := List.pairwise_cons.1 h.gaps
    have hrest : Spaced rest := ⟨fun s hs => h.upright s (List.mem_cons_of_mem r hs), hgaps⟩
    have hbeyond : ∀ a, r.stop ≤ a → (∃ s ∈ r :: rest, s.contains a = true) →
        ∃ s ∈ rest, s.contains a = true := by
      rintro a hstop ⟨s, hs, hsa⟩
      rcases List.mem_cons.1 hs with rfl | hs
      · rw [contains_iff] at hsa
        rw [Address.le_def] at hstop
        omega
      · exact ⟨s, hs, hsa⟩
    by_cases hbefore : r.stop ≤ first
    · obtain ⟨s, hs, hboth⟩ := ih hrest fun a hfirst hlast =>
        hbeyond a (Nat.le_trans hbefore hfirst) (hcovered a hfirst hlast)
      exact ⟨s, List.mem_cons_of_mem r hs, hboth⟩
    · have hin : r.contains first = true := by
        obtain ⟨s, hs, hsa⟩ := hcovered first (Nat.le_refl _) hle
        rcases List.mem_cons.1 hs with rfl | hs
        · exact hsa
        · have hlt := hgap s hs
          rw [Address.lt_def] at hlt
          rw [contains_iff] at hsa
          rw [Address.le_def] at hbefore
          omega
      refine ⟨r, List.mem_cons_self, hin, ?_⟩
      rw [contains_iff] at hin
      rw [Address.le_def] at hle
      by_contra hout
      rw [contains_iff] at hout
      -- No interval holds the place where the first one ends.
      have hlast : r.stop ≤ last := Address.le_def.2 (by omega)
      have hfirst : first ≤ r.stop := Address.le_def.2 (by omega)
      obtain ⟨s, hs, hsa⟩ := hbeyond r.stop (Nat.le_refl _) (hcovered r.stop hfirst hlast)
      have hlt := hgap s hs
      rw [Address.lt_def] at hlt
      rw [contains_iff] at hsa
      omega

namespace ModuleList

variable {modules : ModuleList} {a b : Address}

/-- Modules that hold addresses of their own, with their code inside them. -/
structure Tidy (modules : ModuleList) : Prop where
  built : modules.Built
  nonempty : ∀ m ∈ modules.modules, m.range.isEmpty = false
  apart : modules.modules.Pairwise fun m n => m.range.Apart n.range
  inside : ∀ m ∈ modules.modules, ∀ r ∈ m.executableRanges,
    m.base ≤ r.start ∧ r.start ≤ r.stop ∧ r.stop ≤ m.range.stop

/-- No module ends where another one starts. -/
def Gapped (modules : ModuleList) : Prop :=
  ∀ m ∈ modules.modules, ∀ n ∈ modules.modules, m.range.stop ≠ n.base

instance (modules : ModuleList) : Decidable modules.Gapped :=
  inferInstanceAs (Decidable (∀ m ∈ modules.modules, ∀ n ∈ modules.modules, m.range.stop ≠ n.base))

/-- The modules are code throughout. -/
def AllCode (modules : ModuleList) : Prop :=
  ∀ m ∈ modules.modules, ∀ a, m.contains a = true → ∃ r ∈ m.executableRanges, r.contains a = true

namespace Tidy

theorem separated (h : modules.Tidy) :
    Interval.Separated (modules.modules.map Module.range) :=
  separated_of_apart h.built.ascending h.nonempty h.apart

theorem spaced_code (h : modules.Tidy) : Interval.Spaced modules.executableRanges :=
  spaced_of_upright fun m hm r hr => (h.inside m hm r hr).2.1

theorem contains_of_code (h : modules.Tidy)
    (ha : ∃ r ∈ modules.executableRanges, r.contains a = true) :
    ∃ m ∈ modules.modules, m.contains a = true := by
  obtain ⟨m, hm, r, hr, hra⟩ := contains_executableRanges.1 ha
  obtain ⟨hstart, _, hstop⟩ := h.inside m hm r hr
  rw [Interval.contains_iff] at hra
  rw [Address.le_def] at hstart hstop
  refine ⟨m, hm, Module.contains_eq_true_iff.2 ⟨Address.le_def.2 ?_, Address.lt_def.2 ?_⟩⟩
  all_goals omega

theorem spaced (h : modules.Tidy) (hg : modules.Gapped) :
    Interval.Spaced (modules.modules.map Module.range) := by
  constructor
  · intro r hr
    have hne := Interval.isEmpty_eq_false_iff.1 (h.separated.nonempty r hr)
    exact Address.le_def.2 (Nat.le_of_lt hne)
  · refine h.separated.ordered.imp_of_mem fun {r s} hr hs hle => ?_
    obtain ⟨m, hm, rfl⟩ := List.mem_map.1 hr
    obtain ⟨n, hn, rfl⟩ := List.mem_map.1 hs
    have hne : m.range.stop.toNat ≠ n.range.start.toNat :=
      fun heq => hg m hm n hn (Address.ext_toNat heq)
    rw [Address.le_def] at hle
    exact Address.lt_def.2 (by omega)

/-- Where the same modules hold two addresses, lookups find the same. -/
theorem pathAt?_congr (h : modules.Tidy)
    (hsame : ∀ m ∈ modules.modules, m.contains a = m.contains b) :
    modules.pathAt? a = modules.pathAt? b := by
  have hat : modules.at? a = modules.at? b := by
    refine Option.ext fun m => ?_
    rw [at?_eq_some_iff h.separated, at?_eq_some_iff h.separated]
    exact and_congr_right fun hm => by rw [hsame m hm]
  rw [pathAt?, pathAt?, hat]

/-- Code in a row lies in one module if no two of them touch. -/
theorem pathAt?_of_code (h : modules.Tidy) (hg : modules.Gapped) (hle : a ≤ b)
    (hcode : ∀ c, a ≤ c → c ≤ b → ∃ r ∈ modules.executableRanges, r.contains c = true) :
    modules.pathAt? a = modules.pathAt? b := by
  have hcovered : ∀ c, a ≤ c → c ≤ b →
      ∃ r ∈ modules.modules.map Module.range, r.contains c = true := by
    intro c hac hcb
    obtain ⟨m, hm, hc⟩ := h.contains_of_code (hcode c hac hcb)
    exact ⟨m.range, List.mem_map_of_mem hm, hc⟩
  obtain ⟨r, hr, ha, hb⟩ := (h.spaced hg).exists_contains_both hle hcovered
  obtain ⟨m, hm, rfl⟩ := List.mem_map.1 hr
  rw [pathAt?, pathAt?, (at?_eq_some_iff h.separated).2 ⟨hm, ha⟩,
    (at?_eq_some_iff h.separated).2 ⟨hm, hb⟩]

theorem pathAt?_eq_none (h : modules.Tidy) (ha : ∀ m ∈ modules.modules, m.contains a = false) :
    modules.pathAt? a = none := by
  rw [pathAt?, (at?_eq_none_iff h.built.ascending).2 (.inl ha)]
  rfl

end Tidy
end ModuleList

namespace RegionMap

variable {captured : Captured} {modules : ModuleList} {m : Mapping} {a : Address}

theorem name_of_mem_shown (hm : m ∈ shown captured modules) :
    m.name = modules.pathAt? m.range.start := by
  obtain ⟨r, _, p, _, rfl⟩ := mem_shown.1 hm
  rfl

/-- The name of executable memory is right throughout if no two modules touch. -/
theorem name_of_executable (h : modules.Tidy) (hg : modules.Gapped)
    (hm : m ∈ shown captured modules) (ha : m.range.contains a = true)
    (hx : m.permissions.execute = true) : m.name = modules.pathAt? a := by
  rw [name_of_mem_shown hm]
  have hrange := Interval.contains_iff.1 ha
  refine h.pathAt?_of_code hg (Address.le_def.2 hrange.1) fun c hstart hstop => ?_
  rw [Address.le_def] at hstart hstop
  have hc : m.range.contains c = true := Interval.contains_iff.2 (by omega)
  exact (permissions_of_mem_shown h.spaced_code hm hc).2.2.1 hx

/-- Memory that cannot be executed has no name where the modules are code throughout. -/
theorem name_of_not_executable (h : modules.Tidy) (hcode : modules.AllCode)
    (hm : m ∈ shown captured modules) (ha : m.range.contains a = true)
    (hx : m.permissions.execute = false) : m.name = modules.pathAt? a := by
  have houtside : ∀ c, m.range.contains c = true →
      ∀ n ∈ modules.modules, n.contains c = false := by
    intro c hc n hn
    rw [← Bool.not_eq_true]
    intro hnc
    have hexecute := (permissions_of_mem_shown h.spaced_code hm hc).2.2.2
      (ModuleList.contains_executableRanges.2 ⟨n, hn, hcode n hn c hnc⟩)
    rw [hx] at hexecute
    exact Bool.noConfusion hexecute
  have hrange := Interval.contains_iff.1 ha
  have hstart : m.range.contains m.range.start = true :=
    Interval.contains_iff.2 ⟨Nat.le_refl _, by omega⟩
  rw [name_of_mem_shown hm, h.pathAt?_eq_none (houtside _ hstart),
    h.pathAt?_eq_none (houtside a ha)]

/-- A region inferred from captured memory has the name of the module at its first byte. This is the
module of every byte up to the first bound of a module, of every byte of code if no two modules
touch, and of every captured byte if the modules are also code throughout. -/
theorem captured_names (hc : captured.Reachable) (h : modules.Tidy) :
    ∃ map, build none none captured modules = .ok map ∧ map.source = .captured ∧
      ∀ a, (captured.byteAt? a).isSome = true →
        (map.regionAt a).name = modules.pathAt? (map.regionAt a).range.start ∧
        ((∀ m ∈ modules.modules, m.contains (map.regionAt a).range.start = m.contains a) →
          (map.regionAt a).name = modules.pathAt? a) ∧
        (modules.Gapped → (map.regionAt a).permissions.execute = true →
          (map.regionAt a).name = modules.pathAt? a) ∧
        (modules.Gapped → modules.AllCode → (map.regionAt a).name = modules.pathAt? a) := by
  have hcaptured := hc.wellFormed
  have hmap : build none none captured modules = .ok ⟨.captured, shown captured modules⟩ :=
    build_of_captured hcaptured.separated
  refine ⟨_, hmap, rfl, fun a ha => ?_⟩
  rw [hcaptured.byteAt?_isSome_iff] at ha
  obtain ⟨m, hm, hma⟩ := contains_shown.2 ha
  rw [regionAt_eq_mapping (build_separated hcaptured.separated hmap) hm hma]
  have hexecutable := fun hg hx => name_of_executable h hg hm hma hx
  refine ⟨name_of_mem_shown hm, fun hsame => ?_, hexecutable, fun hg hcode => ?_⟩
  · exact (name_of_mem_shown hm).trans (h.pathAt?_congr hsame)
  · cases hx : m.permissions.execute with
    | true => exact hexecutable hg hx
    | false => exact name_of_not_executable h hcode hm hma hx

/-- A module without an image and one with code in two places, apart, in one captured interval. -/
theorem captured_names_two :
    let plain : Module := ⟨"/a", ⟨0x11⟩, 2, "", "", none, 0, 0, none, none⟩
    let image : Image := ⟨"/b", none, [⟨⟨0x14⟩, ⟨0x15⟩⟩, ⟨⟨0x15⟩, ⟨0x16⟩⟩]⟩
    let loaded : Module := ⟨"/b", ⟨0x14⟩, 2, "", "", none, 0, 0, none, some image⟩
    let captured := Captured.empty.add ⟨⟨⟨0x10⟩, ⟨0x18⟩⟩, Buffer.ofBytes [1, 2, 3, 4, 5, 6, 7, 8]⟩
    let modules := ModuleList.mk [plain, loaded]
    ∃ map, build none none captured modules = .ok map ∧
      (map.regionAt ⟨0x12⟩).name = some "/a" ∧ (map.regionAt ⟨0x13⟩).name = none ∧
      (map.regionAt ⟨0x15⟩).name = some "/b" ∧ (map.regionAt ⟨0x16⟩).name = none := by
  intro plain image loaded captured modules
  have hc : captured.Reachable := .add .empty (by decide)
  have hapart : plain.range.Apart loaded.range :=
    (Interval.apart_iff (by decide) (by decide)).2 (by decide)
  have h : modules.Tidy := ⟨ModuleList.built_of_ascending (by decide), by decide,
    List.pairwise_pair.2 hapart, by decide⟩
  have hgapped : modules.Gapped := by decide
  have hcode : modules.AllCode := by
    intro m hm a ha
    rw [Module.contains_eq_true_iff] at ha
    rcases List.mem_pair.1 hm with rfl | rfl
    · exact ⟨_, List.mem_singleton_self _, Interval.contains_iff.2 ha⟩
    · by_cases hlt : a.toNat < 0x15
      · exact ⟨⟨⟨0x14⟩, ⟨0x15⟩⟩, by decide, Interval.contains_iff.2 ⟨ha.1, hlt⟩⟩
      · exact ⟨⟨⟨0x15⟩, ⟨0x16⟩⟩, by decide, Interval.contains_iff.2 ⟨Nat.le_of_not_lt hlt, ha.2⟩⟩
  obtain ⟨map, hmap, _, hnames⟩ := captured_names hc h
  have hname : ∀ a, (captured.byteAt? a).isSome = true →
      (map.regionAt a).name = modules.pathAt? a :=
    fun a ha => (hnames a ha).2.2.2 hgapped hcode
  refine ⟨map, hmap, ?_, ?_, ?_, ?_⟩
  · rw [hname _ (by decide +kernel)]
    decide
  · rw [hname _ (by decide +kernel)]
    decide
  · rw [hname _ (by decide +kernel)]
    decide
  · rw [hname _ (by decide +kernel)]
    decide

/-- Where two modules touch, the second one's code has the name of the first. -/
theorem captured_name_ne :
    let first : Module := ⟨"/a", ⟨0x10⟩, 2, "", "", none, 0, 0, none, none⟩
    let second : Module := ⟨"/b", ⟨0x12⟩, 2, "", "", none, 0, 0, none, none⟩
    let captured := Captured.empty.add ⟨⟨⟨0x10⟩, ⟨0x14⟩⟩, Buffer.ofBytes [1, 2, 3, 4]⟩
    let modules := ModuleList.mk [first, second]
    captured.Reachable ∧ modules.Tidy ∧ (captured.byteAt? ⟨0x12⟩).isSome = true ∧
      modules.pathAt? ⟨0x12⟩ = some "/b" ∧
      ∃ map, build none none captured modules = .ok map ∧
        (map.regionAt ⟨0x12⟩).name = some "/a" := by
  intro first second captured modules
  have hapart : first.range.Apart second.range :=
    (Interval.apart_iff (by decide) (by decide)).2 (by decide)
  have h : modules.Tidy := ⟨ModuleList.built_of_ascending (by decide), by decide,
    List.pairwise_pair.2 hapart, by decide⟩
  have hc : captured.Reachable := .add .empty (by decide)
  have hcode : modules.executableRanges = [⟨⟨0x10⟩, ⟨0x14⟩⟩] := by
    rw [ModuleList.executableRanges, Interval.union, Interval.sort,
      List.mergeSort_of_pairwise (by decide)]
    decide
  have hshown : shown captured modules =
      [⟨⟨⟨0x10⟩, ⟨0x14⟩⟩, ⟨true, false, true⟩, some "/a"⟩] := by
    rw [shown, hcode]
    decide +kernel
  refine ⟨hc, h, by decide +kernel, by decide, _, build_of_captured hc.wellFormed.separated, ?_⟩
  rw [hshown]
  decide +kernel

end RegionMap
end CrashDump
