/-
Drawing as a loop over the pixels of the sprite. The loop goes through the sprite row by row, and
where a bit is set it inverts one pixel of the screen as it then stands; it remembers whether it has
switched one off. No two bits of a sprite come to lie on one pixel, so the order does not show: after
any part of the loop the pixels under the bits so far are inverted and the others are as before.
That is what `DXYN` makes of the whole screen at once.
-/
import Chip8.Proofs.Machine.Footprint
import Chip8.Proofs.Sprite

namespace Chip8

/-! ## Single pixels -/

/-- A lit pixel goes dark and a dark one is lit. -/
def inverted (p : UInt8) : UInt8 := if p = 1 then 0 else 1

theorem inverted_eq {p : UInt8} (h : p = 0 ∨ p = 1) : inverted p = p ^^^ 1 := by
  rcases h with rfl | rfl <;> rfl

namespace Screen

/-- The pixel at a place; outside of the screen everything is dark. -/
def pixelAt (s : Screen) (row col : Nat) : UInt8 :=
  ((s[row]?).bind fun pixels => pixels[col]?).getD 0

/-- The screen with one pixel inverted. -/
def invert (s : Screen) (row col : Nat) : Screen :=
  s.mapIdx fun r pixels => pixels.mapIdx fun c p => if r = row ∧ c = col then inverted p else p

theorem pixelAt_eq (s : Screen) {row col : Nat} (hr : row < 32) (hc : col < 64) :
    s.pixelAt row col = s[row][col] := by
  simp [pixelAt, hr, hc]

theorem pixelAt_eq_one {s : Screen} {row col : Nat} (h : s.pixelAt row col = 1) :
    ∃ (hr : row < 32) (hc : col < 64), s[row][col] = 1 := by
  by_cases hr : row < 32
  · by_cases hc : col < 64
    · exact ⟨hr, hc, (pixelAt_eq s hr hc).symm.trans h⟩
    · simp [pixelAt, hr, hc] at h
  · simp [pixelAt, hr] at h

theorem pixelAt_invert (s : Screen) {row col : Nat} (hr : row < 32) (hc : col < 64) (r c : Nat) :
    (s.invert row col).pixelAt r c =
      if r = row ∧ c = col then inverted (s.pixelAt r c) else s.pixelAt r c := by
  by_cases hin : r < 32 ∧ c < 64
  · obtain ⟨hr', hc'⟩ := hin
    rw [pixelAt_eq _ hr' hc', pixelAt_eq _ hr' hc', invert, Vector.getElem_mapIdx,
      Vector.getElem_mapIdx]
  · have hne : ¬ (r = row ∧ c = col) := by
      rintro ⟨rfl, rfl⟩
      exact hin ⟨hr, hc⟩
    rw [if_neg hne]
    simp only [pixelAt, invert, Vector.getElem?_mapIdx]
    cases s[r]? with
    | none => rfl
    | some pixels =>
      simp only [Option.map_some, Option.bind_some, Vector.getElem?_mapIdx, if_neg hne,
        Option.map_id']

end Screen

/-! ## The loop -/

/-- A screen on which a sprite is being drawn, and whether a pixel has gone dark so far. -/
structure Canvas where
  screen : Screen
  erased : Bool

namespace Canvas

/-- Inverts one pixel. -/
def flip (c : Canvas) (row col : Nat) : Canvas where
  screen := c.screen.invert row col
  erased := c.erased || c.screen.pixelAt row col == 1

/-- Column `j` of the sprite. -/
def paintBit (b : UInt8) (x row : Nat) (c : Canvas) (j : Nat) : Canvas :=
  if b.toNat.testBit (7 - j) then c.flip row ((x + j) % 64) else c

/-- Row `i` of the sprite. -/
def paintRow (m : Memory) (start x y : Nat) (c : Canvas) (i : Nat) : Canvas :=
  (List.range 8).foldl (paintBit (m.read (start + i)) x ((y + i) % 32)) c

/-- Draws the sprite of so many rows that starts at an address, with its corner at column `x`,
row `y`. -/
def paint (m : Memory) (start x y height : Nat) (c : Canvas) : Canvas :=
  (List.range height).foldl (paintRow m start x y) c

/-! ## What a part of the loop does -/

/-- The pixels at some places, and no others, are inverted. -/
structure Inverts (P : Nat → Nat → Prop) (c d : Canvas) : Prop where
  inside : ∀ row col, P row col →
    d.screen.pixelAt row col = inverted (c.screen.pixelAt row col)
  outside : ∀ row col, ¬ P row col → d.screen.pixelAt row col = c.screen.pixelAt row col
  erased : d.erased = true ↔ c.erased = true ∨ ∃ row col, P row col ∧ c.screen.pixelAt row col = 1

theorem Inverts.none {P : Nat → Nat → Prop} (h : ∀ row col, ¬ P row col) (c : Canvas) :
    Inverts P c c where
  inside row col hp := absurd hp (h row col)
  outside _ _ _ := rfl
  erased := by
    constructor
    · exact .inl
    · rintro (he | ⟨row, col, hp, -⟩)
      · exact he
      · exact absurd hp (h row col)

/-- Places that have nothing in common are inverted one after the other. -/
theorem Inverts.trans {P Q R : Nat → Nat → Prop} {c d e : Canvas} (hp : Inverts P c d)
    (hq : Inverts Q d e) (hdisjoint : ∀ row col, P row col → ¬ Q row col)
    (hr : ∀ row col, R row col ↔ P row col ∨ Q row col) : Inverts R c e where
  inside row col h := by
    rcases (hr row col).1 h with h | h
    · rw [hq.outside row col (hdisjoint row col h), hp.inside row col h]
    · rw [hq.inside row col h, hp.outside row col fun h' => hdisjoint row col h' h]
  outside row col h := by
    rw [hr, not_or] at h
    rw [hq.outside row col h.2, hp.outside row col h.1]
  erased := by
    rw [hq.erased, hp.erased, or_assoc]
    refine or_congr_right ?_
    constructor
    · rintro (⟨row, col, h, hlit⟩ | ⟨row, col, h, hlit⟩)
      · exact ⟨row, col, (hr row col).2 (.inl h), hlit⟩
      · rw [hp.outside row col fun h' => hdisjoint row col h' h] at hlit
        exact ⟨row, col, (hr row col).2 (.inr h), hlit⟩
    · rintro ⟨row, col, h, hlit⟩
      rcases (hr row col).1 h with h | h
      · exact .inl ⟨row, col, h, hlit⟩
      · refine .inr ⟨row, col, h, ?_⟩
        rw [hp.outside row col fun h' => hdisjoint row col h' h, hlit]

theorem inverts_flip (c : Canvas) {row col : Nat} (hr : row < 32) (hc : col < 64) :
    Inverts (fun r k => r = row ∧ k = col) c (c.flip row col) where
  inside r k h := by
    rw [flip, Screen.pixelAt_invert _ hr hc, if_pos h]
  outside r k h := by
    rw [flip, Screen.pixelAt_invert _ hr hc, if_neg h]
  erased := by
    rw [flip, Bool.or_eq_true, beq_iff_eq]
    refine or_congr_right ?_
    constructor
    · intro hlit
      exact ⟨row, col, ⟨rfl, rfl⟩, hlit⟩
    · rintro ⟨r, k, ⟨rfl, rfl⟩, hlit⟩
      exact hlit

/-- A loop inverts what its steps invert, if no two of them meet. -/
theorem inverts_foldl {f : Canvas → Nat → Canvas} {P : Nat → Nat → Nat → Prop} {n : Nat}
    (hstep : ∀ i < n, ∀ c, Inverts (P i) c (f c i))
    (hdisjoint : ∀ i < n, ∀ j < i, ∀ row col, P j row col → ¬ P i row col) (c : Canvas) :
    Inverts (fun row col => ∃ i < n, P i row col) c ((List.range n).foldl f c) := by
  induction n with
  | zero =>
    refine .none ?_ c
    rintro row col ⟨i, hi, -⟩
    exact Nat.not_lt_zero i hi
  | succ n ih =>
    have hbefore := ih (fun i hi => hstep i (Nat.lt_succ_of_lt hi))
      (fun i hi => hdisjoint i (Nat.lt_succ_of_lt hi))
    have hlast := hstep n (Nat.lt_succ_self n) ((List.range n).foldl f c)
    rw [List.range_succ, List.foldl_append, List.foldl_cons, List.foldl_nil]
    refine hbefore.trans hlast ?_ fun row col => Nat.exists_lt_succ_right
    rintro row col ⟨j, hj, hp⟩
    exact hdisjoint n (Nat.lt_succ_self n) j hj row col hp

theorem inverts_paintBit (b : UInt8) (x : Nat) {row : Nat} (hr : row < 32) (c : Canvas) (j : Nat) :
    Inverts (fun r k => b.toNat.testBit (7 - j) = true ∧ r = row ∧ k = (x + j) % 64) c
      (paintBit b x row c j) := by
  unfold paintBit
  split
  · next hbit =>
    simp only [hbit, true_and]
    exact inverts_flip c hr (Nat.mod_lt _ (by decide))
  · next hbit =>
    refine .none ?_ c
    rintro r k ⟨hset, -⟩
    exact hbit hset

/-- A row of the sprite: its columns are fewer than those of the screen, so none comes round to
another. -/
theorem inverts_paintRow (m : Memory) (start x y : Nat) (c : Canvas) (i : Nat) :
    Inverts (fun row col => ∃ j < 8, (m.read (start + i)).toNat.testBit (7 - j) = true ∧
      row = (y + i) % 32 ∧ col = (x + j) % 64) c (paintRow m start x y c i) := by
  refine inverts_foldl (fun j _ c => inverts_paintBit _ x (Nat.mod_lt _ (by decide)) c j) ?_ c
  rintro j hj k hk row col ⟨-, -, hcol⟩ ⟨-, -, hcol'⟩
  omega

/-- The whole loop inverts the pixels under the sprite. -/
theorem inverts_paint (m : Memory) (start x y : Nat) {height : Nat} (hh : height ≤ 32)
    (c : Canvas) :
    Inverts (Sprite.Covers (m.slice start height) x y) c (c.paint m start x y height) := by
  have hcovers : Sprite.Covers (m.slice start height) x y = _ :=
    funext fun row => funext fun col => propext Memory.covers_slice
  rw [hcovers]
  refine inverts_foldl (fun i _ c => inverts_paintRow m start x y c i) ?_ c
  rintro i hi k hk row col ⟨j, -, -, hrow, -⟩ ⟨j', -, -, hrow', -⟩
  omega

end Canvas

/-! ## Against the whole screen -/

section Whole

variable {s : Screen} {sprite : Sprite} {x y : Nat} {d : Canvas}

theorem Canvas.Inverts.screen_eq (hb : s.Binary) (hlen : sprite.length ≤ 32)
    (h : Inverts (sprite.Covers x y) ⟨s, false⟩ d) :
    d.screen = s.flip (Screen.place sprite x y) := by
  ext row hr col hc : 2
  rw [← Screen.pixelAt_eq _ hr hc, Screen.getElem_flip]
  by_cases hcov : sprite.Covers x y row col
  · rw [h.inside row col hcov, Screen.pixelAt_eq _ hr hc, inverted_eq (hb row hr col hc),
      (Screen.getElem_place_eq_one hlen hr hc).2 hcov]
  · have hdark : (Screen.place sprite x y)[row][col] = 0 :=
      (Screen.place_binary sprite x y row hr col hc).resolve_right fun hone =>
        hcov ((Screen.getElem_place_eq_one hlen hr hc).1 hone)
    rw [h.outside row col hcov, Screen.pixelAt_eq _ hr hc, hdark, UInt8.xor_zero]

theorem Canvas.Inverts.erased_eq (hb : s.Binary) (hlen : sprite.length ≤ 32)
    (h : Inverts (sprite.Covers x y) ⟨s, false⟩ d) :
    d.erased = s.collides (Screen.place sprite x y) := by
  rw [Bool.eq_iff_iff, h.erased, Screen.collides_iff hb (Screen.place_binary sprite x y)]
  constructor
  · rintro (hfalse | ⟨row, col, hcov, hlit⟩)
    · cases hfalse
    · obtain ⟨hr, hc, hone⟩ := Screen.pixelAt_eq_one hlit
      exact ⟨row, hr, col, hc, hone, (Screen.getElem_place_eq_one hlen hr hc).2 hcov⟩
  · rintro ⟨row, hr, col, hc, hone, hmask⟩
    exact .inr ⟨row, col, (Screen.getElem_place_eq_one hlen hr hc).1 hmask,
      (Screen.pixelAt_eq s hr hc).trans hone⟩

end Whole

namespace Machine

theorem ofWord_draw (x y n : Fin 16) :
    Instruction.ofWord (0xD000 + 0x100 * x + 0x10 * y + n) = .draw x y n := by
  refine (Instruction.ofWord_eq_iff (w := 0xD000 + 0x100 * x + 0x10 * y + n) (by omega)).2 ?_
  rw [Instruction.Stands]
  omega

/-- `DXYN` does what the loop over the pixels of the sprite does, and the flag is set exactly if the
loop switches a pixel off. So does a draw that gathers a byte of memory for every pixel of the
screen, whatever it is answered past the end of memory. -/
theorem draw_eq_paint {s : Machine} (hb : s.screen.Binary) (x y n : Fin 16)
    (hfit : n = 0 ∨ s.index.toNat + n ≤ 4096) :
    let c := Canvas.paint s.memory s.index.toNat ((s.register x).toNat % 64)
      ((s.register y).toNat % 32) n ⟨s.screen, false⟩
    let t := { s.setRegister flagRegister (flagByte c.erased) with
      screen := c.screen
      redraw := true }
    s.execute (.ofWord (0xD000 + 0x100 * x + 0x10 * y + n)) = t ∧
      ∀ b, (Loose.draw b s x y n).machine = t := by
  intro c t
  have hlen : (s.memory.slice s.index.toNat n).length ≤ 32 := by
    rw [Memory.length_slice]
    omega
  have hloop := Canvas.inverts_paint s.memory s.index.toNat ((s.register x).toNat % 64)
    ((s.register y).toNat % 32) (show n.val ≤ 32 by omega) ⟨s.screen, false⟩
  have hscreen := hloop.screen_eq hb hlen
  have herased := hloop.erased_eq hb hlen
  rw [Screen.place_mod] at hscreen herased
  have hdraw : s.execute (.draw x y n) = t := by
    rw [execute_draw hfit]
    simp only [t, c, hscreen, herased]
  rw [ofWord_draw]
  exact ⟨hdraw, fun b => (Loose.draw_eq b s x y n).trans hdraw⟩

/-- A sprite of the last four bytes of memory, with `VF` for both of its registers, reaches over the
corner of the screen to the opposite edges and switches the last pixel off. -/
theorem draw_eq_paint_corner :
    let s := { fresh (.ofSeed 0) false with
      memory := Memory.fresh.store 0xFFC [0x81, 0xFF, 0x3C, 0xC3]
      registers := Vector.replicate 16 61
      index := 0xFFC
      screen := Screen.place [0xFF, 0xFF] 60 30 }
    let c := Canvas.paint s.memory 0xFFC 61 29 4 ⟨s.screen, false⟩
    s.screen.Binary ∧ s.index.toNat + 4 ≤ 4096 ∧ c.erased = true ∧
      s.execute (.ofWord 0xDFF4) =
        { s.setRegister flagRegister 1 with screen := c.screen, redraw := true } := by
  intro s c
  have hbinary : s.screen.Binary := Screen.place_binary _ _ _
  have hindex : s.index.toNat = 0xFFC := rfl
  have hregister : s.register 15 = 61 := by decide
  have hbit : (s.memory.read (0xFFC + 2)).toNat.testBit 5 = true := by decide +kernel
  have hlit : s.screen.pixelAt 31 63 = 1 := by decide +kernel
  clear_value s
  have hfit : s.index.toNat + 4 ≤ 4096 := by omega
  have hcovers : Sprite.Covers (s.memory.slice 0xFFC 4) 61 29 31 63 :=
    Memory.covers_slice.2 ⟨2, by decide, 2, by decide, hbit, rfl, rfl⟩
  have herased : c.erased = true :=
    (Canvas.inverts_paint s.memory 0xFFC 61 29 (by decide) ⟨s.screen, false⟩).erased.2
      (.inr ⟨31, 63, hcovers, hlit⟩)
  obtain ⟨hdraw, -⟩ := draw_eq_paint hbinary 15 15 4 (.inr hfit)
  rw [hregister, hindex] at hdraw
  have hflag : s.execute (.ofWord 0xDFF4) = { s.setRegister flagRegister (flagByte c.erased) with
      screen := c.screen
      redraw := true } := hdraw
  rw [herased] at hflag
  exact ⟨hbinary, hfit, herased, hflag⟩

end Machine

end Chip8
