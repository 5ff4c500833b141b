import Sm83.Memory

/-!
What loading data makes of a memory. Main statement: `read_load`.
-/
namespace Sm83.Memory

private theorem toNat_succ {a : UInt16} (room : a.toNat + 1 < 0x10000) : (a + 1).toNat = a.toNat + 1 := by
  rw [UInt16.toNat_add]
  exact Nat.mod_eq_of_lt room

theorem read_store (m : Memory) {a : UInt16} {data : List UInt8} (fits : a.toNat + data.length ≤ 0x10000)
    (c : UInt16) : (m.store a data).read c =
      if a ≤ c then (data[c.toNat - a.toNat]?).getD (m.read c) else m.read c := by
  induction data generalizing m a with
  | nil => simp [store]
  | cons b rest ih =>
    rw [store]
    cases rest with
    | nil =>
      rw [store,read_write]
      by_cases same : c = a
      · simp [same]
      · have apart : c.toNat ≠ a.toNat := fun e => same (UInt16.toNat_inj.mp e)
        rw [if_neg same]
        split
        · rename_i above
          have beyond : ([b] : List UInt8).length ≤ c.toNat - a.toNat := by
            have := UInt16.le_iff_toNat_le.mp above
            simp only [List.length_singleton]
            omega
          rw [List.getElem?_eq_none beyond]
          rfl
        · rfl
    | cons b' rest =>
      simp only [List.length_cons] at fits ih
      have next := toNat_succ (a := a) (by omega)
      rw [ih _ (by omega),read_write]
      simp only [UInt16.le_iff_toNat_le,next,← UInt16.toNat_inj]
      rcases Nat.lt_trichotomy c.toNat a.toNat with below | same | above
      · rw [if_neg (by omega),if_neg (by omega),if_neg (by omega)]
      · rw [if_neg (by omega),if_pos same,if_pos (by omega),same,Nat.sub_self]
        rfl
      · rw [if_pos (by omega),if_neg (by omega),if_pos (by omega)]
        obtain ⟨k,far⟩ : ∃ k, c.toNat - a.toNat = k + 1 := ⟨c.toNat - a.toNat - 1,by omega⟩
        have near : c.toNat - (a.toNat + 1) = k := by omega
        rw [far,near,List.getElem?_cons_succ]

/-- Data that is loaded stands from its address on, as far as there are addresses, and the rest of the
memory is what it was. -/
theorem read_load (m : Memory) (a c : UInt16) (data : List UInt8) :
    (m.load a data).read c =
      if a ≤ c then (data[c.toNat - a.toNat]?).getD (m.read c) else m.read c := by
  have inside := a.toNat_lt
  have last := c.toNat_lt
  have fits : a.toNat + (data.take (room a)).length ≤ 0x10000 := by
    rw [List.length_take,room]
    omega
  rw [load,m.read_store fits,List.getElem?_take_of_lt (by rw [room]; omega)]

end Sm83.Memory
