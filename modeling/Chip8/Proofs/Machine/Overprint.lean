/-
Sprites drawn one on top of the other. A draw reads memory, which it leaves alone, and its own
operands, and it flips the pixels under the sprite; so it flips the same pixels whatever has been
drawn before. After any number of draws a pixel differs from what it was exactly if an odd number of
the sprites set it, and the order in which they came cannot be told from the screen.
-/
import Chip8.Proofs.Machine.Drawing

namespace Chip8

/-- A sprite to be drawn: where its corner goes and which rows of memory it is made of. -/
structure DrawRequest where
  x : UInt8
  y : UInt8
  index : Fin 4096
  height : Fin 16
  fits : index.val + height.val ≤ 4096 := by decide

namespace DrawRequest

/-- `60KK`, `61KK`, `ANNN` and `D01N` with the operands of the request. -/
def words (r : DrawRequest) : List Int :=
  [0x6000 + r.x.toNat, 0x6100 + r.y.toNat, 0xA000 + r.index, 0xD010 + r.height]

/-- A set bit of the sprite falls on the pixel `row`, `col`, wrapped at both edges. -/
def Sets (r : DrawRequest) (m : Memory) (row col : Nat) : Prop :=
  ∃ i < r.height.val, ∃ j < 8, (m.read (r.index + i)).toNat.testBit (7 - j) = true ∧
    row = (r.y.toNat + i) % 32 ∧ col = (r.x.toNat + j) % 64

instance (r : DrawRequest) (m : Memory) (row col : Nat) : Decidable (r.Sets m row col) :=
  inferInstanceAs (Decidable (∃ i < r.height.val, ∃ j < 8,
    (m.read (r.index + i)).toNat.testBit (7 - j) = true ∧
      row = (r.y.toNat + i) % 32 ∧ col = (r.x.toNat + j) % 64))

/-- The pixels that the request flips. -/
def mask (r : DrawRequest) (m : Memory) : Screen :=
  Screen.place (m.slice r.index r.height) r.x.toNat r.y.toNat

theorem getElem_mask (r : DrawRequest) (m : Memory) {row col : Nat} (hr : row < 32)
    (hc : col < 64) : (r.mask m)[row][col] = pixel (decide (r.Sets m row col)) := by
  have hlen : (m.slice r.index r.height).length ≤ 32 := by
    rw [Memory.length_slice]
    omega
  have hone : (r.mask m)[row][col] = 1 ↔ r.Sets m row col :=
    (Screen.getElem_place_eq_one hlen hr hc).trans Memory.covers_slice
  by_cases h : r.Sets m row col
  · rw [hone.2 h, decide_eq_true h]
    rfl
  · rw [decide_eq_false h]
    exact (Screen.place_binary _ _ _ row hr col hc).resolve_right fun hlit => h (hone.1 hlit)

end DrawRequest

namespace Instruction

theorem ofWord_setByte (x : Fin 16) (k : UInt8) :
    ofWord (0x6000 + 0x100 * x + k.toNat) = .setByte x k := by
  have hk := k.toNat_lt
  refine (ofWord_eq_iff (w := 0x6000 + 0x100 * x + k.toNat) (by omega)).2 ?_
  rw [Stands]
  omega

theorem ofWord_setIndex (a : Fin 4096) : ofWord (0xA000 + a) = .setIndex a := by
  refine (ofWord_eq_iff (w := 0xA000 + a) (by omega)).2 ?_
  rw [Stands]
  omega

end Instruction

/-! ## Parity -/

theorem pixel_xor (a b : Bool) : pixel a ^^^ pixel b = pixel (a ^^ b) := by
  cases a <;> cases b <;> rfl

/-- One more element of the kind changes the parity of their number. -/
theorem odd_countP_cons {α : Type} (p : α → Bool) (a : α) (l : List α) :
    decide ((a :: l).countP p % 2 = 1) = (p a ^^ decide (l.countP p % 2 = 1)) := by
  rw [List.countP_cons]
  cases p a with
  | true =>
    rcases Nat.mod_two_eq_zero_or_one (l.countP p) with h | h <;> simp [h, Nat.add_mod]
  | false => simp

namespace Machine

/-- Executes words one after the other. -/
def executeAll (s : Machine) (ws : List Int) : Machine :=
  ws.foldl (fun t w => t.execute (.ofWord w)) s

/-- Executes the words of each request in turn. -/
def serve (s : Machine) (rs : List DrawRequest) : Machine :=
  rs.foldl (fun t r => t.executeAll r.words) s

/-! ## One request -/

section Request

variable (s : Machine) (r : DrawRequest)

/-- The machine with the operands of a request in place. -/
def aimed : Machine :=
  { (s.setRegister 0 r.x).setRegister 1 r.y with index := UInt16.ofNat r.index }

theorem executeAll_words : s.executeAll r.words = (s.aimed r).execute (.draw 0 1 r.height) := by
  have hx : Instruction.ofWord (0x6000 + r.x.toNat) = .setByte 0 r.x := by
    simpa using Instruction.ofWord_setByte 0 r.x
  have hy : Instruction.ofWord (0x6100 + r.y.toNat) = .setByte 1 r.y := by
    simpa using Instruction.ofWord_setByte 1 r.y
  have hdraw : Instruction.ofWord (0xD010 + r.height) = .draw 0 1 r.height := by
    simpa using ofWord_draw 0 1 r.height
  simp only [executeAll, DrawRequest.words, List.foldl_cons, List.foldl_nil, hx, hy, hdraw,
    Instruction.ofWord_setIndex]
  rfl

theorem toNat_index_aimed : (s.aimed r).index.toNat = r.index :=
  UInt16.toNat_ofNat_of_lt' (by simp [UInt16.size]; omega)

theorem mask_aimed : (s.aimed r).mask 0 1 r.height = r.mask s.memory := by
  have hx : (s.aimed r).register 0 = r.x :=
    (register_setRegister _ 1 0 r.y).trans (register_setRegister s 0 0 r.x)
  have hy : (s.aimed r).register 1 = r.y := register_setRegister _ 1 1 r.y
  rw [mask, toNat_index_aimed, hx, hy]
  rfl

/-- A request is never refused, and it flips the pixels that its sprite sets. -/
theorem exists_executeAll_words : ∃ c,
    s.executeAll r.words = (s.aimed r).drawn 0 1 r.height c := by
  have hfit : Memory.Fits (s.aimed r).index.toNat r.height := by
    rw [toNat_index_aimed]
    exact r.fits
  exact ⟨_, (executeAll_words s r).trans (execute_draw_eq_drawn (.inr hfit))⟩

theorem screen_executeAll_words :
    (s.executeAll r.words).screen = s.screen.flip (r.mask s.memory) := by
  obtain ⟨c, hc⟩ := exists_executeAll_words s r
  rw [hc, ← mask_aimed]
  rfl

theorem memory_executeAll_words : (s.executeAll r.words).memory = s.memory := by
  obtain ⟨c, hc⟩ := exists_executeAll_words s r
  rw [hc]
  rfl

theorem fault_executeAll_words : (s.executeAll r.words).fault = s.fault := by
  obtain ⟨c, hc⟩ := exists_executeAll_words s r
  rw [hc]
  rfl

end Request

/-! ## Any number of requests -/

section Requests

/-- Each pixel is flipped as often as there are requests that set it. -/
theorem getElem_screen_serve (s : Machine) (rs : List DrawRequest) {row col : Nat} (hr : row < 32)
    (hc : col < 64) : (s.serve rs).screen[row][col] =
      s.screen[row][col] ^^^
        pixel (decide (rs.countP (fun r => r.Sets s.memory row col) % 2 = 1)) := by
  induction rs generalizing s with
  | nil => simp [serve, pixel]
  | cons r rs ih =>
    -- the later requests find the memory that this one has found
    have hrest := ih (s.executeAll r.words)
    rw [memory_executeAll_words, screen_executeAll_words, Screen.getElem_flip,
      DrawRequest.getElem_mask r s.memory hr hc, UInt8.xor_assoc, pixel_xor] at hrest
    rw [odd_countP_cons]
    exact hrest

theorem fault_serve (s : Machine) (rs : List DrawRequest) : (s.serve rs).fault = s.fault := by
  induction rs generalizing s with
  | nil => rfl
  | cons r rs ih => exact (ih (s.executeAll r.words)).trans (fault_executeAll_words s r)

theorem screen_serve_perm (s : Machine) {rs rs' : List DrawRequest} (h : rs.Perm rs') :
    (s.serve rs).screen = (s.serve rs').screen := by
  ext row hr col hc : 2
  rw [getElem_screen_serve s rs hr hc, getElem_screen_serve s rs' hr hc, h.countP_eq]

/-- However many sprites are drawn, and wherever, none of them halts the machine, and each pixel is
at the end what it was, flipped if an odd number of them set it. So the order of the sprites does not
show on the screen. -/
theorem draws_in_any_order (s : Machine) (rs : List DrawRequest) :
    (s.serve rs).fault = s.fault ∧
      (∀ (row : Nat) (hr : row < 32) (col : Nat) (hc : col < 64), (s.serve rs).screen[row][col] =
        s.screen[row][col] ^^^
          pixel (decide (rs.countP (fun r => r.Sets s.memory row col) % 2 = 1))) ∧
      ∀ rs' : List DrawRequest, rs.Perm rs' → (s.serve rs').screen = (s.serve rs).screen :=
  ⟨fault_serve s rs, fun _ hr _ hc => getElem_screen_serve s rs hr hc,
    fun _ h => (screen_serve_perm s h).symm⟩

/-- Two zeros over the corner of the screen, one of them a row down and a column to the right of the
other, and the first of them once more where it comes to the same place by going around. -/
theorem draws_in_any_order_corner :
    let s := fresh (.ofSeed 0) false
    let a : DrawRequest := { x := 62, y := 30, index := 0, height := 5 }
    let b : DrawRequest := { x := 63, y := 31, index := 0, height := 5 }
    let c : DrawRequest := { x := 126, y := 94, index := 0, height := 5 }
    (s.serve [a, b]).screen.pixelAt 31 1 = 0 ∧ (s.serve [a, b]).screen.pixelAt 31 0 = 1 ∧
      (s.serve [c, b, a]).screen = (s.serve [a, b, c]).screen ∧
      (s.serve [a, b, c]).screen.pixelAt 31 62 = 0 ∧ (s.serve [a, b, c]).fault = 0 := by
  intro s a b c
  have hcount : ([a, b].countP fun r => r.Sets s.memory 31 1) = 2 ∧
      ([a, b].countP fun r => r.Sets s.memory 31 0) = 1 ∧
      ([a, b, c].countP fun r => r.Sets s.memory 31 62) = 2 := by
    decide +kernel
  have hdark (row col : Nat) (hr : row < 32) (hc : col < 64) : s.screen[row][col] = 0 := by
    simp [s, fresh, Screen.blank]
  have hfault : s.fault = 0 := rfl
  clear_value s
  obtain ⟨htwice, honce, hback⟩ := hcount
  obtain ⟨-, hpixel, -⟩ := draws_in_any_order s [a, b]
  obtain ⟨hrun, hpixel', hperm⟩ := draws_in_any_order s [a, b, c]
  refine ⟨?_, ?_, hperm [c, b, a] (List.reverse_perm [a, b, c]).symm, ?_, hrun.trans hfault⟩
  · rw [Screen.pixelAt_eq _ (by decide) (by decide), hpixel, htwice, hdark]
    rfl
  · rw [Screen.pixelAt_eq _ (by decide) (by decide), hpixel, honce, hdark]
    rfl
  · rw [Screen.pixelAt_eq _ (by decide) (by decide), hpixel', hback, hdark]
    rfl

end Requests

end Machine

end Chip8
