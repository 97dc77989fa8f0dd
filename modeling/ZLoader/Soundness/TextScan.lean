import ZLoader.Model.Lib.Print

/-! # Texts as sequences of characters

`ptr_getc` turns a text in memory into characters, each of which takes some units. A text either
leads character by character to its terminator or to bytes that `mbtowc` rejects, which the reader
does not get over. What stands behind the terminator plays no part as long as a read starts in
front of it.
-/

namespace ZLoader

/-- The characters that `ptr_getc` reads, with the units each takes. -/
inductive Scan where
  | nul
  | malformed
  | char (c : UInt16) (units : ℕ) (rest : Scan)
deriving DecidableEq, Repr

/-- The characters from an index on; every character takes a unit, so the length is enough turns. -/
def Text.scanFrom (text : Text) : ℕ → ℕ → Scan
  | 0, _ => .nul
  | turns + 1, index =>
      if index < text.length then
        let (c, next) := ptrGetc ⟨text, index⟩
        if next.index = index then .malformed
        else .char c (next.index - index) (text.scanFrom turns next.index)
      else .nul

/-- The characters of a text. -/
def Text.scan (text : Text) : Scan := text.scanFrom text.length 0

/-- Two texts with the same units, in whatever memory they stand. -/
inductive Text.SameUnits : Text → Text → Prop where
  | unicode (units : List UInt16) (behind behind' : ℕ → UInt16) :
      SameUnits (.unicode ⟨units, behind⟩) (.unicode ⟨units, behind'⟩)
  | ascii (units : List UInt8) (behind behind' : ℕ → UInt8) :
      SameUnits (.ascii ⟨units, behind⟩) (.ascii ⟨units, behind'⟩)

/-! ## Units of a text -/

section Units

variable {α : Type} [OfNat α 0]

theorem Terminated.get_of_lt (s : Terminated α) {index : ℕ} (inside : index < s.units.length) :
    s.get index = s.units[index] := dif_pos inside

@[simp] theorem Terminated.get_length (s : Terminated α) : s.get s.units.length = 0 := by
  rw [Terminated.get, dif_neg (Nat.lt_irrefl _), if_pos rfl]

theorem Terminated.get_behind (s : Terminated α) (index : ℕ) :
    s.get (s.units.length + 1 + index) = s.behind index := by
  rw [Terminated.get, dif_neg (by omega), if_neg (by omega)]
  congr 1
  omega

theorem Terminated.get_congr (units : List α) (behind behind' : ℕ → α) {index : ℕ}
    (inside : index ≤ units.length) :
    (⟨units, behind⟩ : Terminated α).get index = (⟨units, behind'⟩ : Terminated α).get index := by
  rcases Nat.lt_or_eq_of_le inside with lower | last
  · rw [Terminated.get_of_lt _ lower, Terminated.get_of_lt _ lower]
  · rw [last]
    exact (Terminated.get_length _).trans (Terminated.get_length _).symm

end Units

/-! ## Decoding in front of a NUL -/

section Nul

variable {s : ℕ → UInt8} {z n length : ℕ} {unichar : UInt16}

/-- The bytes of a character stand in front of the NUL, which is a character of its own. -/
theorem mbtowc_length_le (nul : s z = 0) (decoded : mbtowc s n = some (unichar, length)) :
    1 ≤ length ∧ length ≤ max z 1 := by
  obtain ⟨announced, -, rest⟩ := mbtowc_eq_some decoded
  have bounds := mbtowcLength_bounds announced
  refine ⟨bounds.1, Nat.not_lt.mp fun beyond => ?_⟩
  rcases Nat.eq_zero_or_pos z with rfl | positive
  · rw [nul, mbtowcLength_zero] at announced
    obtain rfl := Option.some.inj announced
    omega
  · have member : z ∈ (List.range length).drop 1 := by
      rw [List.range_eq_range', List.drop_range', List.mem_range']
      exact ⟨z - 1, by omega, by omega⟩
    have continues := mbtowcRest_continues rest z member
    rw [nul] at continues
    exact absurd continues (by decide)

/-- Decoding does not depend on what is behind the NUL. -/
theorem mbtowc_eq_some_congr {other : ℕ → UInt8} (same : ∀ index ≤ z, s index = other index)
    (nul : s z = 0) (decoded : mbtowc s n = some (unichar, length)) :
    mbtowc other n = some (unichar, length) := by
  have inside := mbtowc_length_le nul decoded
  have positive : n ≠ 0 := by
    intro empty
    simp [mbtowc, empty] at decoded
  obtain ⟨announced, fits, rest⟩ := mbtowc_eq_some decoded
  have within : ∀ index ∈ (List.range length).drop 1, s index = other index := by
    intro index member
    rw [List.range_eq_range', List.drop_range', List.mem_range'] at member
    obtain ⟨offset, bound, rfl⟩ := member
    exact same _ (by omega)
  have first : s 0 = other 0 := same 0 (Nat.zero_le _)
  rw [first] at announced rest
  rw [mbtowc, if_neg (by simpa using positive), announced]
  simp only [if_neg (Nat.not_lt.mpr fits), ← mbtowcRest_congr within, rest, Option.map_some]

theorem mbtowc_congr_nul {other : ℕ → UInt8} (same : ∀ index ≤ z, s index = other index)
    (nul : s z = 0) (n : ℕ) : mbtowc s n = mbtowc other n := by
  apply Option.ext
  rintro ⟨unichar, length⟩
  constructor
  · exact mbtowc_eq_some_congr same nul
  · exact mbtowc_eq_some_congr (fun index bound => (same index bound).symm)
      ((same z (Nat.le_refl _)).symm.trans nul)

/-- Inside a character nothing is decoded. -/
theorem mbtowc_inside (decoded : mbtowc s n = some (unichar, length)) (long : 1 < length)
    (m : ℕ) : mbtowc (fun index => s (length - 1 + index)) m = none := by
  obtain ⟨-, -, rest⟩ := mbtowc_eq_some decoded
  have member : length - 1 ∈ (List.range length).drop 1 := by
    rw [List.range_eq_range', List.drop_range', List.mem_range']
    exact ⟨length - 2, by omega, by omega⟩
  have announced := mbtowcLength_continuation (mbtowcRest_continues rest _ member)
  rw [mbtowc]
  split_ifs
  · rfl
  · simp only [Nat.add_zero, announced]

end Nul

/-! ## One read -/

section Read

variable {text other : Text} {index : ℕ}

theorem ptrGetc_text (p : Ptr) : (ptrGetc p).2.text = p.text := by
  rw [ptrGetc]
  split
  · split <;> rfl
  · rfl

theorem ptrGetc_index (p : Ptr) : p.index ≤ (ptrGetc p).2.index := by
  rw [ptrGetc]
  split
  · split
    · exact Nat.le_add_right ..
    · exact Nat.le_refl _
  · exact Nat.le_succ _

/-- The pointer behind a read. -/
theorem ptrGetc_snd (text : Text) (index : ℕ) :
    (ptrGetc ⟨text, index⟩).2 = ⟨text, (ptrGetc ⟨text, index⟩).2.index⟩ :=
  congrArg (Ptr.mk · (ptrGetc ⟨text, index⟩).2.index) (ptrGetc_text ⟨text, index⟩)

/-- A read that does not advance is the question mark of a malformed character. -/
theorem ptrGetc_stalled {p : Ptr} (stalled : (ptrGetc p).2.index = p.index) :
    ptrGetc p = (wide '?', p) := by
  rw [ptrGetc] at stalled ⊢
  split at stalled
  · next s ascii =>
    split at stalled
    · next c ret decoded =>
      have bounds := mbtowcLength_bounds (mbtowc_eq_some decoded).1
      dsimp only at stalled
      omega
    · rfl
  · dsimp only at stalled
    omega

/-- The read at the terminator. -/
theorem ptrGetc_length (text : Text) :
    ptrGetc ⟨text, text.length⟩ = (0, ⟨text, text.length + 1⟩) := by
  cases text with
  | unicode s => exact congrArg (·, _) (Terminated.get_length s)
  | ascii s =>
    have first : s.get s.units.length = 0 := Terminated.get_length s
    simp [ptrGetc, Text.length, mbtowc, first, mbtowcLength_zero, mbtowcFirst, mbtowcRest]

/-- A read in front of the terminator stops there. -/
theorem ptrGetc_index_le (inside : index < text.length) :
    (ptrGetc ⟨text, index⟩).2.index ≤ text.length := by
  cases text with
  | unicode s => exact inside
  | ascii s =>
    have nul : s.get (index + (s.units.length - index)) = 0 := by
      rw [Nat.add_sub_of_le (Nat.le_of_lt (show index < s.units.length from inside))]
      exact Terminated.get_length s
    simp only [ptrGetc]
    split
    · next c ret decoded =>
      have bound := (mbtowc_length_le (s := fun offset => s.get (index + offset)) nul decoded).2
      simp only [Text.length] at inside ⊢
      omega
    · exact Nat.le_of_lt inside

/-- A read up to the terminator does not depend on the memory behind it. -/
theorem ptrGetc_congr (same : text.SameUnits other) (inside : index ≤ text.length) :
    (ptrGetc ⟨text, index⟩).1 = (ptrGetc ⟨other, index⟩).1 ∧
      (ptrGetc ⟨text, index⟩).2.index = (ptrGetc ⟨other, index⟩).2.index := by
  cases same with
  | unicode units behind behind' =>
    exact ⟨Terminated.get_congr units behind behind' inside, rfl⟩
  | ascii units behind behind' =>
    have nul : (⟨units, behind⟩ : Terminated UInt8).get (index + (units.length - index)) = 0 := by
      rw [Nat.add_sub_of_le (show index ≤ units.length from inside)]
      exact Terminated.get_length _
    have decoded : mbtowc (fun offset => (⟨units, behind⟩ : Terminated UInt8).get (index + offset))
        8 = mbtowc (fun offset => (⟨units, behind'⟩ : Terminated UInt8).get (index + offset)) 8 := by
      apply mbtowc_congr_nul (z := units.length - index) _ nul
      intro offset bound
      apply Terminated.get_congr
      simp only [Text.length] at inside
      omega
    simp only [ptrGetc, decoded]
    constructor <;> split <;> rfl

/-- One step back from a character of several units there is no character. -/
theorem ptrGetc_back {length : ℕ} (long : 1 < length)
    (read : (ptrGetc ⟨text, index⟩).2.index = index + length) :
    ptrGetc ⟨text, index + length - 1⟩ = (wide '?', ⟨text, index + length - 1⟩) := by
  cases text with
  | unicode s =>
    simp only [ptrGetc] at read
    omega
  | ascii s =>
    simp only [ptrGetc] at read ⊢
    cases decoded : mbtowc (fun offset => s.get (index + offset)) 8 with
    | none =>
      simp only [decoded] at read
      omega
    | some result =>
      obtain ⟨c, ret⟩ := result
      simp only [decoded, Nat.add_left_cancel_iff] at read
      subst ret
      have inside := mbtowc_inside decoded long 8
      have moved : (fun offset => s.get (index + (length - 1 + offset))) =
          fun offset => s.get (index + length - 1 + offset) := by
        funext offset
        congr 1
        omega
      rw [moved] at inside
      rw [inside]

end Read

/-! ## A text and its characters -/

/-- The characters stand in the text from an index on. -/
def Text.StandsAt (text : Text) : Scan → ℕ → Prop
  | .nul, index => index = text.length
  | .malformed, index =>
      index < text.length ∧ ptrGetc ⟨text, index⟩ = (wide '?', ⟨text, index⟩)
  | .char c units rest, index =>
      0 < units ∧ index + units ≤ text.length ∧
        ptrGetc ⟨text, index⟩ = (c, ⟨text, index + units⟩) ∧ text.StandsAt rest (index + units)

theorem Text.StandsAt.le {text : Text} {scan : Scan} {index : ℕ}
    (stands : text.StandsAt scan index) : index ≤ text.length := by
  cases scan with
  | nul => exact Nat.le_of_eq stands
  | malformed => exact Nat.le_of_lt stands.1
  | char c units rest => exact Nat.le_trans (Nat.le_add_right ..) stands.2.1

theorem Text.scanFrom_stands (text : Text) {turns index : ℕ} (inside : index ≤ text.length)
    (enough : text.length ≤ index + turns) :
    text.StandsAt (text.scanFrom turns index) index := by
  induction turns generalizing index with
  | zero => exact Nat.le_antisymm inside enough
  | succ turns ih =>
    simp only [Text.scanFrom]
    split_ifs with lower stalled
    · exact ⟨lower, ptrGetc_stalled stalled⟩
    · have forward := ptrGetc_index ⟨text, index⟩
      have bound := ptrGetc_index_le lower
      have advance : index + ((ptrGetc ⟨text, index⟩).2.index - index) =
          (ptrGetc ⟨text, index⟩).2.index := Nat.add_sub_cancel' forward
      refine ⟨by omega, by omega, ?_, ?_⟩
      · rw [advance, ← ptrGetc_snd]
      · rw [advance]
        exact ih bound (by omega)
    · exact Nat.le_antisymm inside (Nat.not_lt.mp lower)

theorem Text.scan_stands (text : Text) : text.StandsAt text.scan 0 :=
  text.scanFrom_stands (Nat.zero_le _) (Nat.le_add_left ..)

theorem Text.SameUnits.length {text other : Text} (same : text.SameUnits other) :
    text.length = other.length := by
  cases same <;> rfl

theorem Text.SameUnits.scanFrom {text other : Text} (same : text.SameUnits other)
    (turns index : ℕ) : text.scanFrom turns index = other.scanFrom turns index := by
  induction turns generalizing index with
  | zero => rfl
  | succ turns ih =>
    by_cases lower : index < other.length
    · obtain ⟨c, next⟩ := ptrGetc_congr same (Nat.le_of_lt (same.length ▸ lower))
      simp only [Text.scanFrom, same.length, lower, if_true, c, next, ih]
    · simp only [Text.scanFrom, same.length, lower, if_false]

/-- The characters of a text are those of its units. -/
theorem Text.SameUnits.scan {text other : Text} (same : text.SameUnits other) :
    text.scan = other.scan := by
  rw [Text.scan, Text.scan, same.length]
  exact same.scanFrom _ _

/-! ## The units that a read examines -/

/-- The units of the text that `ptr_getc` examines. -/
def Ptr.reads (p : Ptr) : List ℕ :=
  match p.text with
  | .ascii s => (mbtowcReads (fun index => s.get (p.index + index)) 8).map (p.index + ·)
  | .unicode _ => [p.index]

theorem mbtowcRestReads_le {s : ℕ → UInt8} {z : ℕ} (nul : s z = 0) {start : ℕ}
    (before : start ≤ z) (count : ℕ) :
    ∀ index ∈ mbtowcRestReads s (List.range' start count), index ≤ z := by
  induction count generalizing start with
  | zero => simp [mbtowcRestReads]
  | succ count ih =>
    rw [List.range'_succ, mbtowcRestReads, List.forall_mem_cons]
    refine ⟨before, ?_⟩
    split_ifs with other
    · simp
    · have continues : s start &&& 0xc0 = 0x80 := by simpa using other
      have distinct : start ≠ z := by
        rintro rfl
        rw [nul] at continues
        exact absurd continues (by decide)
      exact ih (by omega)

theorem Ptr.index_mem_reads (p : Ptr) : p.index ∈ p.reads := by
  rw [Ptr.reads]
  split
  · simp [mbtowcReads]
  · exact List.mem_singleton_self _

/-- A read that starts at the terminator or in front of it examines nothing behind it. -/
theorem Ptr.reads_le {p : Ptr} (inside : p.index ≤ p.text.length) :
    ∀ index ∈ p.reads, index ≤ p.text.length := by
  obtain ⟨text, start⟩ := p
  cases text with
  | unicode s => simpa [Ptr.reads] using inside
  | ascii s =>
    have nul : s.get (start + (s.units.length - start)) = 0 := by
      rw [Nat.add_sub_of_le (show start ≤ s.units.length from inside)]
      exact Terminated.get_length s
    have relative : ∀ index ∈ mbtowcReads (fun index => s.get (start + index)) 8,
        index ≤ s.units.length - start := by
      rw [mbtowcReads, if_neg (by decide), List.forall_mem_cons]
      refine ⟨Nat.zero_le _, ?_⟩
      split
      · simp
      · next length announced =>
        split_ifs
        · simp
        · rw [List.range_eq_range', List.drop_range']
          rcases Nat.eq_zero_or_pos (s.units.length - start) with last | positive
          · -- the first byte is the terminator, which announces one byte
            rw [last] at nul
            rw [nul, mbtowcLength_zero] at announced
            obtain rfl := Option.some.inj announced
            simp [mbtowcRestReads]
          · exact mbtowcRestReads_le (z := s.units.length - start) nul positive _
    intro index member
    obtain ⟨offset, examined, rfl⟩ := List.mem_map.mp member
    have bound := relative offset examined
    simp only [Text.length] at inside ⊢
    omega

end ZLoader
