import ZLoader.Model.Lib.NumberText

/-! # Buffers of the printer's items

What is put into a buffer stands behind the pointer as it was, and nothing is stored in front of it.
-/

namespace ZLoader.TextBuffer

/-- The pointer has moved over a number of units, and nothing was stored beyond it. -/
structure Adds (before after : TextBuffer) (count : ℕ) : Prop where
  pos : after.pos = before.pos + count
  stores : ∀ index ∈ after.stores, index ∈ before.stores ∨ index ≤ after.pos

variable {first second third : TextBuffer} {count count' : ℕ}

theorem Adds.refl (buffer : TextBuffer) : buffer.Adds buffer 0 := ⟨rfl, fun _ => .inl⟩

theorem Adds.trans (left : first.Adds second count) (right : second.Adds third count') :
    first.Adds third (count + count') := by
  refine ⟨by rw [right.pos, left.pos, Nat.add_assoc], fun index member => ?_⟩
  rcases right.stores index member with earlier | here
  · rcases left.stores index earlier with earlier | before
    · exact .inl earlier
    · exact .inr (Nat.le_trans before (by rw [right.pos]; exact Nat.le_add_right _ _))
  · exact .inr here

theorem adds_store (buffer : TextBuffer) (c : UInt16) : buffer.Adds (buffer.store c) 0 := by
  refine ⟨rfl, fun index member => ?_⟩
  rcases List.mem_cons.mp member with rfl | earlier
  · exact .inr (Nat.le_refl _)
  · exact .inl earlier

theorem adds_put (buffer : TextBuffer) (c : UInt16) : buffer.Adds (buffer.put c) 1 := by
  refine ⟨rfl, fun index member => ?_⟩
  rcases List.mem_cons.mp member with rfl | earlier
  · exact .inr (Nat.le_succ _)
  · exact .inl earlier

theorem adds_puts (buffer : TextBuffer) (text : List UInt16) :
    buffer.Adds (buffer.puts text) text.length := by
  induction text generalizing buffer with
  | nil => exact .refl buffer
  | cons c text ih =>
    rw [List.length_cons, Nat.add_comm]
    exact (buffer.adds_put c).trans (ih (buffer.put c))


/-! ## The units -/

theorem units_puts_of_lt (buffer : TextBuffer) (text : List UInt16) {index : ℕ}
    (before : index < buffer.pos) : (buffer.puts text).units index = buffer.units index := by
  induction text generalizing buffer with
  | nil => rfl
  | cons c text ih =>
    have kept := ih (buffer.put c) (Nat.lt_succ_of_lt before)
    exact kept.trans (Function.update_of_ne (Nat.ne_of_lt before) ..)

/-- The units that were put are read back. -/
theorem map_units_puts (buffer : TextBuffer) (text : List UInt16) :
    (List.range' buffer.pos text.length).map (buffer.puts text).units = text := by
  induction text generalizing buffer with
  | nil => rfl
  | cons c text ih =>
    have here : (buffer.puts (c :: text)).units buffer.pos = c :=
      ((buffer.put c).units_puts_of_lt text (Nat.lt_succ_self _)).trans
        (Function.update_self ..)
    rw [List.length_cons, List.range'_succ, List.map_cons, here]
    exact congrArg (c :: ·) (ih (buffer.put c))

end ZLoader.TextBuffer
