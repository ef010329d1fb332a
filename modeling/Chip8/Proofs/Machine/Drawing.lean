/-
A sprite drawn twice in a row. The first draw changes `VF` and the screen, and of these only `VF`
could move the sprite; so where `VF` is not one of its coordinates, the second draw flips the same
pixels again and the screen is as before. The flags of the two draws tell what lay under the set bits
of the sprite: the first, whether there was a lit pixel, and the second, whether there was a dark
one. A sprite on a ground that is lit throughout is reported by the first draw only.
-/
import Chip8.Proofs.Machine.Frame
import Chip8.Proofs.Machine.Painting

namespace Chip8

/-- What the first of two draws has flipped, the second finds the other way round. -/
theorem Screen.collides_flip_iff {a b : Screen} (ha : a.Binary) (hb : b.Binary) :
    (a.flip b).collides b = true ↔
      ∃ (row : Nat) (hr : row < 32) (col : Nat) (hc : col < 64),
        a[row][col] = 0 ∧ b[row][col] = 1 := by
  have hflip {row col : Nat} (hr : row < 32) (hc : col < 64) :
      (a.flip b)[row][col] = 1 ∧ b[row][col] = 1 ↔ a[row][col] = 0 ∧ b[row][col] = 1 := by
    rw [getElem_flip]
    refine and_congr_left fun hone => ?_
    rcases ha row hr col hc with h | h <;> simp [h, hone]
  rw [collides_iff (flip_binary ha hb) hb]
  constructor
  · rintro ⟨row, hr, col, hc, h⟩
    exact ⟨row, hr, col, hc, (hflip hr hc).1 h⟩
  · rintro ⟨row, hr, col, hc, h⟩
    exact ⟨row, hr, col, hc, (hflip hr hc).2 h⟩

namespace Machine

/-! ## The sprite of a draw -/

/-- Bit `j` of row `i` is set in the sprite of `n` rows at the index register. -/
def HasBit (s : Machine) (n i j : Nat) : Prop :=
  i < n ∧ j < 8 ∧ (s.memory.read (s.index.toNat + i)).toNat.testBit (7 - j) = true

/-- The pixel on which bit `j` of row `i` falls, wrapped at both edges. -/
def pixelUnder (s : Machine) (x y : Fin 16) (i j : Nat) : UInt8 :=
  s.screen.pixelAt (((s.register y).toNat + i) % 32) (((s.register x).toNat + j) % 64)

/-- A set bit of the sprite falls on a pixel of the value `p`. -/
def FallsOn (s : Machine) (x y : Fin 16) (n : Nat) (p : UInt8) : Prop :=
  ∃ i j, s.HasBit n i j ∧ s.pixelUnder x y i j = p

/-- The pixels that a draw flips. -/
def mask (s : Machine) (x y : Fin 16) (n : Nat) : Screen :=
  Screen.place (s.memory.slice s.index.toNat n) (s.register x).toNat (s.register y).toNat

section Mask

variable {s : Machine} {x y n : Fin 16}

theorem mask_binary (s : Machine) (x y n : Fin 16) : (s.mask x y n).Binary :=
  Screen.place_binary _ _ _

theorem getElem_mask_eq_one {row col : Nat} (hr : row < 32) (hc : col < 64) :
    (s.mask x y n)[row][col] = 1 ↔ ∃ i j, s.HasBit n i j ∧
      row = ((s.register y).toNat + i) % 32 ∧ col = ((s.register x).toNat + j) % 64 := by
  have hlen : (s.memory.slice s.index.toNat n).length ≤ 32 := by
    rw [Memory.length_slice]
    omega
  rw [mask, Screen.getElem_place_eq_one hlen hr hc, Memory.covers_slice]
  constructor
  · rintro ⟨i, hi, j, hj, hbit, hplace⟩
    exact ⟨i, j, ⟨hi, hj, hbit⟩, hplace⟩
  · rintro ⟨i, j, ⟨hi, hj, hbit⟩, hplace⟩
    exact ⟨i, hi, j, hj, hbit, hplace⟩

/-- The values under the set bits are those of the flipped pixels. -/
theorem fallsOn_iff {p : UInt8} : s.FallsOn x y n p ↔
    ∃ (row : Nat) (hr : row < 32) (col : Nat) (hc : col < 64),
      s.screen[row][col] = p ∧ (s.mask x y n)[row][col] = 1 := by
  constructor
  · rintro ⟨i, j, hbit, hp⟩
    have hr : ((s.register y).toNat + i) % 32 < 32 := Nat.mod_lt _ (by decide)
    have hc : ((s.register x).toNat + j) % 64 < 64 := Nat.mod_lt _ (by decide)
    rw [pixelUnder, Screen.pixelAt_eq _ hr hc] at hp
    exact ⟨_, hr, _, hc, hp, (getElem_mask_eq_one hr hc).2 ⟨i, j, hbit, rfl, rfl⟩⟩
  · rintro ⟨row, hr, col, hc, hp, hone⟩
    obtain ⟨i, j, hbit, rfl, rfl⟩ := (getElem_mask_eq_one hr hc).1 hone
    exact ⟨i, j, hbit, (Screen.pixelAt_eq _ hr hc).trans hp⟩

/-- A set bit falls on a lit pixel or on a dark one. -/
theorem HasBit.fallsOn {i j : Nat} (h : s.HasBit n i j) (hb : s.screen.Binary) (x y : Fin 16) :
    s.FallsOn x y n 1 ∨ s.FallsOn x y n 0 := by
  have hr : ((s.register y).toNat + i) % 32 < 32 := Nat.mod_lt _ (by decide)
  have hc : ((s.register x).toNat + j) % 64 < 64 := Nat.mod_lt _ (by decide)
  rcases hb _ hr _ hc with hdark | hlit
  · exact .inr ⟨i, j, h, (Screen.pixelAt_eq _ hr hc).trans hdark⟩
  · exact .inl ⟨i, j, h, (Screen.pixelAt_eq _ hr hc).trans hlit⟩

end Mask

/-! ## One draw and two -/

section Twice

variable {s : Machine} {x y n : Fin 16}

/-- The machine after a draw that has reported `c`. -/
def drawn (s : Machine) (x y : Fin 16) (n : Nat) (c : Bool) : Machine :=
  { s.setRegister flagRegister (flagByte c) with
    screen := s.screen.flip (s.mask x y n)
    redraw := true }

theorem execute_draw_eq_drawn (h : n = 0 ∨ Memory.Fits s.index.toNat n) :
    s.execute (.draw x y n) = s.drawn x y n (s.screen.collides (s.mask x y n)) :=
  execute_draw h

theorem register_drawn_of_ne {r : Fin 16} (hr : r ≠ flagRegister) (c : Bool) :
    (s.drawn x y n c).register r = s.register r :=
  (register_setRegister s flagRegister r (flagByte c)).trans (if_neg hr.symm)

theorem register_drawn_flag (c : Bool) :
    (s.drawn x y n c).register flagRegister = flagByte c :=
  (register_setRegister s flagRegister flagRegister (flagByte c)).trans (if_pos rfl)

/-- A draw leaves its sprite where it was, if the flag is not one of the coordinates. -/
theorem mask_drawn (hx : x ≠ flagRegister) (hy : y ≠ flagRegister) (c : Bool) :
    (s.drawn x y n c).mask x y n = s.mask x y n := by
  rw [mask, register_drawn_of_ne hx, register_drawn_of_ne hy]
  rfl

theorem drawn_drawn (hx : x ≠ flagRegister) (hy : y ≠ flagRegister) (c d : Bool) :
    (s.drawn x y n c).drawn x y n d =
      { s.setRegister flagRegister (flagByte d) with redraw := true } := by
  have hscreen : (s.drawn x y n c).screen = s.screen.flip (s.mask x y n) := rfl
  rw [drawn, mask_drawn hx hy, hscreen, Screen.flip_flip]
  simp [drawn, setRegister]

/-- The two draws one after the other: the second flag is about the screen that the first has
flipped. -/
theorem execute_execute_draw (hx : x ≠ flagRegister) (hy : y ≠ flagRegister)
    (h : n = 0 ∨ Memory.Fits s.index.toNat n) :
    (s.execute (.draw x y n)).execute (.draw x y n) =
      { s.setRegister flagRegister
          (flagByte ((s.screen.flip (s.mask x y n)).collides (s.mask x y n))) with
        redraw := true } := by
  have hagain (c : Bool) : n = 0 ∨ Memory.Fits (s.drawn x y n c).index.toNat n := h
  rw [execute_draw_eq_drawn h, execute_draw_eq_drawn (hagain _), mask_drawn hx hy,
    drawn_drawn hx hy]
  rfl

theorem register_execute_execute_draw (hx : x ≠ flagRegister) (hy : y ≠ flagRegister)
    (h : n = 0 ∨ Memory.Fits s.index.toNat n) :
    ((s.execute (.draw x y n)).execute (.draw x y n)).register flagRegister =
      flagByte ((s.screen.flip (s.mask x y n)).collides (s.mask x y n)) := by
  rw [execute_execute_draw hx hy h]
  exact (register_setRegister ..).trans (if_pos rfl)

/-- The second draw takes back all that the first has changed, but for the flag and the mark. -/
theorem execute_execute_draw_restores (hx : x ≠ flagRegister) (hy : y ≠ flagRegister)
    (h : n = 0 ∨ Memory.Fits s.index.toNat n) :
    let u := (s.execute (.draw x y n)).execute (.draw x y n)
    u = { s.setRegister flagRegister (u.register flagRegister) with redraw := true } := by
  intro u
  have hflag : u.register flagRegister = _ := register_execute_execute_draw hx hy h
  rw [hflag]
  exact execute_execute_draw hx hy h

theorem flagByte_iff {c : Bool} {P : Prop} (h : c = true ↔ P) :
    (flagByte c = 1 ↔ P) ∧ (flagByte c = 0 ↔ ¬ P) := by
  rw [← h]
  cases c <;> simp [flagByte]

/-- The flag of a draw says whether a lit pixel lies under the sprite. -/
theorem flag_execute_draw (hb : s.screen.Binary) (h : n = 0 ∨ Memory.Fits s.index.toNat n) :
    let f := (s.execute (.draw x y n)).register flagRegister
    (f = 1 ↔ s.FallsOn x y n 1) ∧ (f = 0 ↔ ¬ s.FallsOn x y n 1) := by
  intro f
  have hf : f = flagByte (s.screen.collides (s.mask x y n)) := by
    simp only [f, execute_draw_eq_drawn h, register_drawn_flag]
  have hlit := Screen.collides_iff hb (mask_binary s x y n)
  rw [← fallsOn_iff] at hlit
  exact hf ▸ flagByte_iff hlit

/-- The flag of the second draw says whether a dark pixel lay under the sprite before the first. -/
theorem flag_execute_execute_draw (hb : s.screen.Binary) (hx : x ≠ flagRegister)
    (hy : y ≠ flagRegister) (h : n = 0 ∨ Memory.Fits s.index.toNat n) :
    let f := ((s.execute (.draw x y n)).execute (.draw x y n)).register flagRegister
    (f = 1 ↔ s.FallsOn x y n 0) ∧ (f = 0 ↔ ¬ s.FallsOn x y n 0) := by
  intro f
  have hf : f = flagByte ((s.screen.flip (s.mask x y n)).collides (s.mask x y n)) :=
    register_execute_execute_draw hx hy h
  have hdark := Screen.collides_flip_iff hb (mask_binary s x y n)
  rw [← fallsOn_iff] at hdark
  exact hf ▸ flagByte_iff hdark

/-- `DXYN` twice in a row gives back all of the machine but `VF` and the mark that the screen has
been drawn on. The first time `VF` says whether a set bit of the sprite fell on a lit pixel of the
screen from before, and the second time whether one fell on a dark pixel of it. So a sprite that has
a set bit is reported at least once, and by the second draw alone where all was dark under it. -/
theorem execute_draw_twice (hb : s.screen.Binary) (hx : x ≠ 0xF) (hy : y ≠ 0xF)
    (hfit : n = 0 ∨ s.index.toNat + n ≤ 4096) :
    let i := Instruction.ofWord (0xD000 + 0x100 * x + 0x10 * y + n)
    let t := s.execute i
    let u := t.execute i
    u = { s.setRegister 0xF (u.register 0xF) with redraw := true } ∧
      (t.register 0xF = 1 ↔ s.FallsOn x y n 1) ∧
      (t.register 0xF = 0 ↔ ¬ s.FallsOn x y n 1) ∧
      (u.register 0xF = 1 ↔ s.FallsOn x y n 0) ∧
      (u.register 0xF = 0 ↔ ¬ s.FallsOn x y n 0) ∧
      ((∃ i j, s.HasBit n i j) → t.register 0xF = 1 ∨ u.register 0xF = 1) ∧
      ((∃ i j, s.HasBit n i j) → (∀ i j, s.HasBit n i j → s.pixelUnder x y i j = 0) →
        t.register 0xF = 0 ∧ u.register 0xF = 1) := by
  intro i t u
  have hi : i = .draw x y n := ofWord_draw x y n
  obtain ⟨hone, hzero⟩ : (t.register 0xF = 1 ↔ s.FallsOn x y n 1) ∧
      (t.register 0xF = 0 ↔ ¬ s.FallsOn x y n 1) := by
    simp only [t, hi]
    exact flag_execute_draw hb hfit
  obtain ⟨hone', hzero'⟩ : (u.register 0xF = 1 ↔ s.FallsOn x y n 0) ∧
      (u.register 0xF = 0 ↔ ¬ s.FallsOn x y n 0) := by
    simp only [u, t, hi]
    exact flag_execute_execute_draw hb hx hy hfit
  refine ⟨?_, hone, hzero, hone', hzero', ?_, ?_⟩
  · simp only [u, t, hi]
    exact execute_execute_draw_restores hx hy hfit
  · rintro ⟨i, j, hbit⟩
    exact (hbit.fallsOn hb x y).imp hone.2 hone'.2
  · rintro ⟨i, j, hbit⟩ hground
    refine ⟨hzero.2 ?_, hone'.2 ⟨i, j, hbit, hground i j hbit⟩⟩
    rintro ⟨i', j', hbit', hlit'⟩
    have h01 : (0 : UInt8) = 1 := (hground i' j' hbit').symm.trans hlit'
    exact absurd h01 (by decide)

/-- A sprite over the corner of the screen, on a ground of which only a part is lit: both draws
report a collision. The first row of it alone lies in the dark, and only the second draw does. -/
theorem execute_draw_twice_corner :
    let s := { fresh (.ofSeed 0) false with
      memory := Memory.fresh.store 0xFFC [0x81, 0xFF, 0x3C, 0xC3]
      registers := Vector.replicate 16 61
      index := 0xFFC
      screen := Screen.place [0xFF, 0xFF] 60 30 }
    let t := s.execute (.ofWord 0xD124)
    let u := t.execute (.ofWord 0xD124)
    let t' := s.execute (.ofWord 0xD121)
    let u' := t'.execute (.ofWord 0xD121)
    s.screen.Binary ∧ s.index.toNat + 4 ≤ 4096 ∧ u.screen = s.screen ∧ u'.screen = s.screen ∧
      t.register 0xF = 1 ∧ u.register 0xF = 1 ∧ t'.register 0xF = 0 ∧ u'.register 0xF = 1 := by
  intro s t u t' u'
  have hbinary : s.screen.Binary := Screen.place_binary _ _ _
  have hindex : s.index.toNat = 0xFFC := rfl
  have hread (i : Nat) (hi : 0xFFC + i < 4096) : s.memory.read (0xFFC + i) =
      ([0x81, 0xFF, 0x3C, 0xC3][i]?).getD (Memory.fresh.read (0xFFC + i)) :=
    Memory.read_store Memory.fresh hi _
  have hregister (r : Fin 16) : s.register r = 61 := Vector.getElem_replicate r.isLt
  have hground {row col : Nat} (hr : row < 32) (hc : col < 64) : s.screen.pixelAt row col =
      pixel (Sprite.lit [0xFF, 0xFF] ((row + 2) % 32) ((col + 4) % 64)) :=
    (Screen.pixelAt_eq _ hr hc).trans (Screen.getElem_place _ _ _ _ _ hr hc)
  clear_value s
  have hfit (n : Nat) (hn : n ≤ 4) : s.index.toNat + n ≤ 4096 := by omega
  have hbit : s.HasBit 4 2 2 := by
    refine ⟨by decide, by decide, ?_⟩
    rw [hindex, hread 2 (by decide)]
    rfl
  have hbit' (n : Nat) (hn : 0 < n) : s.HasBit n 0 0 := by
    refine ⟨hn, by decide, ?_⟩
    rw [hindex, hread 0 (by decide)]
    rfl
  have hlit : s.pixelUnder 1 2 2 2 = 1 := by
    rw [pixelUnder, hregister, hregister]
    exact hground (by decide) (by decide)
  have hdark (j : Nat) : s.pixelUnder 1 2 0 j = 0 := by
    rw [pixelUnder, hregister, hregister, hground (by decide) (Nat.mod_lt _ (by decide))]
    simp [Sprite.lit, pixel]
  obtain ⟨hu, hone, -, hone', -⟩ := execute_draw_twice (s := s) (x := 1) (y := 2) (n := 4) hbinary
    (by decide) (by decide) (.inr (hfit 4 (by decide)))
  obtain ⟨hu', -, -, -, -, -, hsecond⟩ := execute_draw_twice (s := s) (x := 1) (y := 2) (n := 1)
    hbinary (by decide) (by decide) (.inr (hfit 1 (by decide)))
  have hscreen := congrArg Machine.screen hu
  have hscreen' := congrArg Machine.screen hu'
  obtain ⟨hzero, hlast⟩ := hsecond ⟨0, 0, hbit' 1 (by decide)⟩ fun i j hrow => by
    obtain rfl : i = 0 := Nat.lt_one_iff.1 hrow.1
    exact hdark j
  exact ⟨hbinary, hfit 4 (by decide), hscreen, hscreen', hone.2 ⟨2, 2, hbit, hlit⟩,
    hone'.2 ⟨0, 0, hbit' 4 (by decide), hdark 0⟩, hzero, hlast⟩

end Twice

end Machine

end Chip8
