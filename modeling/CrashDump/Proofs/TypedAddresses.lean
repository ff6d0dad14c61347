import CrashDump.CommandLine.AddressText
import CrashDump.Proofs.Lines
import CrashDump.Proofs.Numerals

/-!
# Addresses read as they are typed

What counts of a typed text is what stands between the blanks around it. It is read exactly if it is
digits of base 16 after `0x` or else digits of base 10, with underscores anywhere and a plus before
the digits or none, and if the number fits 64 bits. However an address is printed, it reads back.
-/
namespace CrashDump

namespace Text

variable {text core front back : List Char}

/-- What a text has between the blanks around it. -/
structure Trims (text core : List Char) : Prop where
  around : ∃ front back, text = front ++ core ++ back ∧ (∀ c ∈ front, isBlank c = true) ∧
    ∀ c ∈ back, isBlank c = true
  first : ∀ c ∈ core.head?, isBlank c = false
  last : ∀ c ∈ core.getLast?, isBlank c = false

theorem trims_of_not_blank (h : ∀ c ∈ text, isBlank c = false) : Trims text text where
  around := ⟨[], [], by simp, by simp, by simp⟩
  first c hc := h c (List.mem_of_mem_head? hc)
  last c hc := h c (List.mem_of_getLast? hc)

theorem trims_trim (text : List Char) : Trims text (trim text) where
  around := by
    refine ⟨text.takeWhile isBlank, (text.dropWhile isBlank).rtakeWhile isBlank, ?_,
      fun c => List.mem_takeWhile_imp, fun c => List.mem_rtakeWhile_imp⟩
    change text = _ ++ (text.dropWhile isBlank).rdropWhile isBlank ++ _
    rw [List.append_assoc, List.rdropWhile_append_rtakeWhile, List.takeWhile_append_dropWhile]
  first c hc := by
    have hprefix : trim text <+: text.dropWhile isBlank := List.rdropWhile_prefix isBlank _
    have hhead := List.head?_dropWhile_not isBlank text
    obtain ⟨rest, hrest⟩ := List.head?_eq_some_iff.1 hc
    obtain ⟨more, hmore⟩ := hprefix
    rw [← hmore, hrest] at hhead
    simpa using hhead
  last c hc := by
    obtain ⟨front, hfront⟩ := List.getLast?_eq_some_iff.1 hc
    have hne : (text.dropWhile isBlank).rdropWhile isBlank ≠ [] := by
      change trim text ≠ []
      simp [hfront]
    have hlast := List.rdropWhile_last_not isBlank _ hne
    rw [← Bool.not_eq_true]
    convert hlast
    exact ((List.getLast_eq_iff_getLast?_eq_some hne).2 hc).symm

theorem Trims.trim_eq (h : Trims text core) : trim text = core := by
  obtain ⟨front, back, rfl, hfront, hback⟩ := h.around
  have hrest : (core ++ back).dropWhile isBlank = if core = [] then [] else core ++ back := by
    cases core with
    | nil => exact List.dropWhile_eq_nil_iff.2 hback
    | cons c rest => simp [h.first c rfl]
  change ((front ++ core ++ back).dropWhile isBlank).rdropWhile isBlank = core
  rw [List.append_assoc, List.dropWhile_append_of_pos hfront, hrest]
  split
  · next hcore => rw [hcore, List.rdropWhile_nil]
  · have hend : back.reverse.dropWhile isBlank = [] :=
      List.dropWhile_eq_nil_iff.2 fun c hc => hback c (List.mem_reverse.1 hc)
    have hkept : core.rdropWhile isBlank = core := by
      refine List.rdropWhile_eq_self_iff.2 fun hne => ?_
      rw [Bool.not_eq_true]
      exact h.last _ (List.getLast?_eq_some_getLast hne)
    rw [List.rdropWhile, List.reverse_append, List.dropWhile_append, hend, List.isEmpty_nil,
      if_pos rfl]
    exact hkept

end Text

namespace Address

open Numeral

variable {text core digits : List Char} {a : Address} {m n : Nat} {x : Char}

/-- A number as it is typed. Underscores are of no account. -/
inductive Typed : List Char → Nat → Prop
  | hex {x : Char} {digits : List Char} {n : Nat} (hx : x = 'x' ∨ x = 'X')
      (h : Unsigned 16 (digits.filter fun c => c ≠ '_') n) : Typed ('0' :: x :: digits) n
  | decimal {text : List Char} {n : Nat}
      (hnone : ∀ digits, text ≠ '0' :: 'x' :: digits ∧ text ≠ '0' :: 'X' :: digits)
      (h : Unsigned 10 (text.filter fun c => c ≠ '_') n) : Typed text n

theorem ne_hex (hnone : ∀ digits, text ≠ '0' :: 'x' :: digits ∧ text ≠ '0' :: 'X' :: digits)
    (hx : x = 'x' ∨ x = 'X') : text ≠ '0' :: x :: digits := by
  rcases hx with rfl | rfl
  · exact (hnone digits).1
  · exact (hnone digits).2

theorem typedNumber?_eq_some_iff {base : Nat} (hbase : base ≤ 16) :
    typedNumber? base text = some n ↔
      Unsigned base (text.filter fun c => c ≠ '_') n ∧ n < 2 ^ 64 := by
  have hfilter : (text.filter fun c => c != '_') = text.filter fun c => c ≠ '_' :=
    List.filter_congr fun c _ => by simp [bne, beq_eq_decide]
  rw [typedNumber?, unsigned?_eq_some_iff hbase, hfilter]
  rfl

theorem typedValue?_eq_some_iff : typedValue? text = some n ↔ Typed text n ∧ n < 2 ^ 64 := by
  unfold typedValue?
  split
  · next digits =>
    rw [typedNumber?_eq_some_iff (Nat.le_refl 16)]
    refine and_congr_left fun _ => ⟨.hex (.inl rfl), fun h => ?_⟩
    cases h with
    | hex _ h => exact h
    | decimal hnone _ => exact absurd rfl (hnone digits).1
  · next digits =>
    rw [typedNumber?_eq_some_iff (Nat.le_refl 16)]
    refine and_congr_left fun _ => ⟨.hex (.inr rfl), fun h => ?_⟩
    cases h with
    | hex _ h => exact h
    | decimal hnone _ => exact absurd rfl (hnone digits).2
  · next hlower hupper =>
    rw [typedNumber?_eq_some_iff (by decide)]
    have hnone := fun digits => And.intro (hlower digits) (hupper digits)
    refine and_congr_left fun _ => ⟨.decimal hnone, fun h => ?_⟩
    cases h with
    | hex hx _ => exact absurd rfl (ne_hex hnone hx)
    | decimal _ h => exact h

theorem Typed.unique (hm : Typed text m) (hn : Typed text n) : m = n := by
  cases hm with
  | hex hx hm =>
    cases hn with
    | hex _ hn => exact hm.unique (Nat.le_refl 16) hn
    | decimal hnone _ => exact absurd rfl (ne_hex hnone hx)
  | decimal hnone hm =>
    cases hn with
    | hex hx _ => exact absurd rfl (ne_hex hnone hx)
    | decimal _ hn => exact hm.unique (by decide) hn

section Reading

variable {text : String} {core : List Char} (htrim : Text.Trims text.toList core)
include htrim

theorem ofText_eq_ok_iff : ofText text = .ok a ↔ Typed core a.toNat := by
  rw [ofText, htrim.trim_eq]
  constructor
  · intro h
    split at h
    · next n hn =>
      obtain ⟨htyped, hlt⟩ := typedValue?_eq_some_iff.1 hn
      rwa [← Except.ok.inj h, toNat_ofNat hlt]
    · simp at h
  · intro h
    rw [typedValue?_eq_some_iff.2 ⟨h, a.toNat_lt⟩]
    exact congrArg Except.ok (ext_toNat (toNat_ofNat a.toNat_lt))

theorem ofText_eq_error_iff :
    ofText text = .error (.badArgument (.address (String.ofList core))) ↔
      ¬∃ n, Typed core n ∧ n < 2 ^ 64 := by
  rw [ofText, htrim.trim_eq]
  simp only [← typedValue?_eq_some_iff]
  cases typedValue? core with
  | none => simp
  | some n => simp

end Reading

section Printing

variable {base : Nat} {c : Char}

/-- Digits with underscores between them have no other characters. -/
theorem mem_of_writes (h : Writes base (digits.filter fun c => c ≠ '_') n) (hc : c ∈ digits) :
    c ∈ '_' :: (Hex.lowerDigits ++ Hex.upperDigits) := by
  by_cases hunder : c = '_'
  · exact hunder ▸ List.mem_cons_self
  · exact List.mem_cons_of_mem _ (h.mem (List.mem_filter.2 ⟨hc, decide_eq_true hunder⟩))

theorem isBlank_of_writes (h : Writes base (digits.filter fun c => c ≠ '_') n) :
    ∀ c ∈ digits, Text.isBlank c = false := by
  have hall : ('_' :: (Hex.lowerDigits ++ Hex.upperDigits)).all (fun c => !Text.isBlank c) := by
    decide
  intro c hc
  simpa using List.all_eq_true.1 hall c (mem_of_writes h hc)

theorem not_mem_of_writes (h : Writes base (digits.filter fun c => c ≠ '_') n) :
    'x' ∉ digits ∧ 'X' ∉ digits :=
  ⟨fun hx => absurd (mem_of_writes h hx) (by decide),
    fun hx => absurd (mem_of_writes h hx) (by decide)⟩

theorem ofText_hex (hx : x = 'x' ∨ x = 'X')
    (h : Writes 16 (digits.filter fun c => c ≠ '_') a.toNat) :
    ofText (String.ofList ('0' :: x :: digits)) = .ok a := by
  have hblank : ∀ c ∈ '0' :: x :: digits, Text.isBlank c = false := by
    rw [List.forall_mem_cons, List.forall_mem_cons]
    refine ⟨by decide, ?_, isBlank_of_writes h⟩
    rcases hx with rfl | rfl
    · decide
    · decide
  refine (ofText_eq_ok_iff ?_).2 (.hex hx (.plain h))
  rw [String.toList_ofList]
  exact Text.trims_of_not_blank hblank

theorem ofText_decimal (h : Writes 10 (digits.filter fun c => c ≠ '_') a.toNat) :
    ofText (String.ofList digits) = .ok a := by
  have hnone : ∀ rest, digits ≠ '0' :: 'x' :: rest ∧ digits ≠ '0' :: 'X' :: rest := by
    obtain ⟨hlower, hupper⟩ := not_mem_of_writes h
    refine fun rest => ⟨?_, ?_⟩
    · rintro rfl
      exact hlower (by simp)
    · rintro rfl
      exact hupper (by simp)
  refine (ofText_eq_ok_iff ?_).2 (.decimal hnone (.plain h))
  rw [String.toList_ofList]
  exact Text.trims_of_not_blank (isBlank_of_writes h)

end Printing

/-- What is typed is read exactly if it is a number as it is typed that fits 64 bits, it is read as
that number, and anything else is refused. An address reads back from its sixteen digits, from its
digits of base 16 in any case and from those of base 10, with underscores anywhere between them. -/
theorem typed_exact :
    (∀ text : String, ∃ core, Text.Trims text.toList core) ∧
    (∀ (text : String) (core : List Char), Text.Trims text.toList core →
      (∀ a, ofText text = .ok a ↔ Typed core a.toNat) ∧
      (ofText text = .error (.badArgument (.address (String.ofList core))) ↔
        ¬∃ n, Typed core n ∧ n < 2 ^ 64)) ∧
    (∀ core m n, Typed core m → Typed core n → m = n) ∧
    ∀ (a : Address) (digits : List Char),
      ('0' :: 'x' :: digits.filter (fun c => c ≠ '_') = a.text.toList →
        ofText (String.ofList ('0' :: 'x' :: digits)) = .ok a) ∧
      (∀ x, x = 'x' ∨ x = 'X' →
        List.Forall₂ (fun c d => c = d ∨ c = Char.toUpper d) (digits.filter fun c => c ≠ '_')
          (Hex.short a.toNat).toList →
        ofText (String.ofList ('0' :: x :: digits)) = .ok a) ∧
      ((digits.filter fun c => c ≠ '_') = (toString a.toNat).toList →
        ofText (String.ofList digits) = .ok a) := by
  refine ⟨fun text => ⟨_, Text.trims_trim _⟩,
    fun text core htrim => ⟨fun a => ofText_eq_ok_iff htrim, ofText_eq_error_iff htrim⟩,
    fun core m n => Typed.unique, fun a digits => ⟨fun h => ?_, fun x hx h => ?_, fun h => ?_⟩⟩
  · have hdigits : (digits.filter fun c => c ≠ '_') = Hex.digits 16 a.toNat := by
      simpa [Address.text, Hex.fixed] using h
    refine ofText_hex (.inl rfl) (.of_value? (Nat.le_refl 16) ?_ ?_)
    · rw [hdigits]
      exact List.ne_nil_of_length_pos (by simp)
    · rw [hdigits, Hex.value?_digits]
      exact congrArg some (Nat.mod_eq_of_lt a.toNat_lt)
  · have hspells : Hex.Spells (digits.filter fun c => c ≠ '_') a.toNat := by
      rw [Hex.short, String.toList_ofList] at h
      exact ⟨0, h⟩
    exact ofText_hex hx (.of_value? (Nat.le_refl 16) hspells.ne_nil hspells.value?_eq)
  · have hdigits : (digits.filter fun c => c ≠ '_') = Nat.toDigits 10 a.toNat := by
      rw [h]
      exact String.toList_ofList
    refine ofText_decimal (.of_value? (by decide) ?_ ?_)
    · rw [hdigits]
      exact Nat.toDigits_ne_nil
    · rw [hdigits]
      exact value?_toDigits (by decide) (by decide) _

/-- A number of base 16 with blanks around it and an underscore inside, and the first number of
base 10 that is too large, after a plus. -/
theorem typed_exact_blanks :
    ofText "\t0X7fff_0000 \n" = .ok ⟨0x7fff0000⟩ ∧
      ofText " +18_446744073709551616" =
        .error (.badArgument (.address "+18_446744073709551616")) := by
  have hfirst : Text.Trims "\t0X7fff_0000 \n".toList "0X7fff_0000".toList := by
    refine ⟨⟨['\t'], [' ', '\n'], by decide, ?_, ?_⟩, ?_, ?_⟩ <;> simp [Text.isBlank]
  have hsecond : Text.Trims " +18_446744073709551616".toList "+18_446744073709551616".toList := by
    refine ⟨⟨[' '], [], by decide, ?_, ?_⟩, ?_, ?_⟩ <;> simp [Text.isBlank]
  have hin : Typed "0X7fff_0000".toList 0x7fff0000 :=
    .hex (.inr rfl) (.plain (.of_value? (by decide) (by decide) (by decide)))
  have hout : Typed "+18_446744073709551616".toList (2 ^ 64) :=
    .decimal (by simp) (.plus (.of_value? (by decide) (by decide) (by decide)))
  refine ⟨((typed_exact.2.1 _ _ hfirst).1 _).2 hin, (typed_exact.2.1 _ _ hsecond).2.2 ?_⟩
  rintro ⟨n, hn, hlt⟩
  exact Nat.lt_irrefl _ (typed_exact.2.2.1 _ _ _ hout hn ▸ hlt)

end Address
end CrashDump
