/-
The window of a session. A frame draws only if its tick asks for it, yet the picture drawn last is
the screen of the machine after every frame that completes and at the end, however the session ends:
what no tick asks to draw has not changed, a tick that halts the machine included.
-/
import Chip8.Proofs.Machine.Redraw
import Chip8.Proofs.Session.Outcome

namespace Chip8

namespace Session

/-! ## Pictures -/

/-- The screen drawn last, or a blank one if none was drawn. -/
def picture (draws : List (Nat × Screen)) : Screen := (draws.getLast?.map Prod.snd).getD Screen.blank

/-- The number of frames that the session completed. Each of them asks for the tone once, and the
end of the session asks once more. -/
def completed (S : Session) : Nat := S.tone.length - 1

/-- What the window shows after `n` completed frames. -/
def shown (S : Session) (n : Nat) : Screen := picture (S.draws.filter (·.1 < n))

/-- What the window shows at the end. -/
def window (S : Session) : Screen := picture S.draws

section Pictures

variable {s t : Machine} {ks : List Keypad} {draws : List (Nat × Screen)} {n q : Nat}

theorem picture_append_of_redraw (h : t.redraw = true) :
    picture (draws ++ drawn n t) = t.screen := by
  rw [picture, drawn, if_pos h, List.getLast?_concat]
  rfl

theorem picture_append_of_not_redraw (h : t.redraw = false) :
    picture (draws ++ drawn n t) = picture draws := by
  rw [drawn, if_neg (by simp [h]), List.append_nil]

theorem drawsOf_concat (s : Machine) (ks : List Keypad) (q : Nat) :
    drawsOf 0 s ks (q + 1) = drawsOf 0 s ks q ++ drawn q (s.run (ks.take (q + 1))) := by
  rw [drawsOf, List.range_succ, List.flatMap_append, List.flatMap_singleton, Nat.zero_add]
  rfl

/-- The picture drawn last by a run that starts with a blank screen is its screen: the induction is
on the ticks, and one that asks for no drawing changes neither. -/
theorem picture_drawsOf (hs : s.screen = Screen.blank) (hq : q ≤ ks.length) :
    picture (drawsOf 0 s ks q) = (s.run (ks.take q)).screen := by
  induction q with
  | zero => exact hs.symm
  | succ q ih =>
    have hlt : q < ks.length := hq
    rw [drawsOf_concat, s.run_take_succ hlt]
    cases hr : ((s.run (ks.take q)).tick ks[q]).redraw with
    | true => exact picture_append_of_redraw hr
    | false =>
      rw [picture_append_of_not_redraw hr, Machine.screen_tick_of_not_redraw hr]
      exact ih (Nat.le_of_lt hlt)

theorem lt_of_mem_drawsOf {d : Nat × Screen} (h : d ∈ drawsOf 0 s ks q) : d.1 < q := by
  obtain ⟨i, hi, hd⟩ := List.mem_flatMap.1 h
  have hdi : d.1 = 0 + i := by
    unfold drawn at hd
    split at hd
    · rw [List.mem_singleton.1 hd]
    · cases hd
  have hiq := List.mem_range.1 hi
  omega

theorem filter_drawsOf (h : n ≤ q) :
    (drawsOf 0 s ks q).filter (·.1 < n) = drawsOf 0 s ks n := by
  -- on the ticks behind the first `n`: what they draw is numbered from `n` on
  obtain ⟨m, rfl⟩ := Nat.exists_eq_add_of_le h
  clear h
  induction m with
  | zero =>
    refine List.filter_eq_self.2 fun d hd => ?_
    exact decide_eq_true (lt_of_mem_drawsOf hd)
  | succ m ih =>
    have hlate : (drawn (n + m) (s.run (ks.take (n + m + 1)))).filter (·.1 < n) = [] := by
      unfold drawn
      split
      · simp
      · rfl
    rw [← Nat.add_assoc, drawsOf_concat, List.filter_append, ih, hlate, List.append_nil]

end Pictures

/-! ## The window of a session -/

section Window

variable {S : Session} {ending : Ending} {last : LogEntry} {s : Machine} {ks : List Keypad} {n q : Nat}

theorem Shows.completed_eq (h : S.Shows ending last 0 s ks q) : S.completed = q := by
  rw [completed, h.tone, beepsOf]
  simp

theorem Shows.shown_eq (h : S.Shows ending last 0 s ks q) (hs : s.screen = Screen.blank)
    (hq : q ≤ ks.length) (hn : n ≤ q) : S.shown n = (s.run (ks.take n)).screen := by
  rw [shown, h.draws, filter_drawsOf hn]
  exact picture_drawsOf hs (Nat.le_trans hn hq)

theorem Shows.window_eq (h : S.Shows ending last 0 s ks q) (hs : s.screen = Screen.blank)
    (hq : q ≤ ks.length) : S.window = (s.run (ks.take q)).screen := by
  rw [window, h.draws]
  exact picture_drawsOf hs hq

variable {r : Command.Request} {content : Except ReadError (List UInt8)} {seed : Int}
  {fs : List Frame}

theorem shown_of_runs (hm : machine? r.program content seed = some s) (hr : s.Runs (samples fs)) :
    let S := run r content seed fs
    (∀ n ≤ S.completed, S.shown n = (s.run ((samples fs).take n)).screen) ∧
      S.ending = .closed ∧ S.completed = (samples fs).length ∧
        S.window = (s.run (samples fs)).screen := by
  have hs := (machine?_blank hm).1
  have hshows := run_shows_of_runs hm hr
  have hwindow := hshows.window_eq hs (Nat.le_refl _)
  rw [List.take_length] at hwindow
  refine ⟨fun n hn => ?_, hshows.ending, hshows.completed_eq, hwindow⟩
  rw [hshows.completed_eq] at hn
  exact hshows.shown_eq hs (Nat.le_refl _) hn

/-- The tick that halts the machine draws nothing, and leaves the screen as the window shows it. -/
theorem shown_of_haltsAt (hm : machine? r.program content seed = some s)
    (hh : s.HaltsAt (samples fs) (q + 1)) :
    let S := run r content seed fs
    (∀ n ≤ S.completed, S.shown n = (s.run ((samples fs).take n)).screen) ∧
      S.ending = .halted ∧ s.HaltsAt (samples fs) (S.completed + 1) ∧
        S.window = (s.run ((samples fs).take (S.completed + 1))).screen := by
  intro S
  have hs := (machine?_blank hm).1
  obtain ⟨c, -, hshows⟩ := run_shows_of_haltsAt hm hh
  have hlt : q < (samples fs).length := hh.le_length
  have hle := Nat.le_of_lt hlt
  -- the halting tick is not among those shown, but it changes nothing on the screen
  have hsame := Machine.screen_tick_of_fault (s.run_take_succ hlt ▸ hh.halted)
  rw [hshows.completed_eq, s.run_take_succ hlt, hsame]
  exact ⟨fun n hn => hshows.shown_eq hs hle hn, hshows.ending, hh, hshows.window_eq hs hle⟩

end Window

/-- The window never shows a stale picture: not after a completed frame, not when the window is
closed, and not when a tick halts the machine. It rests on what each tick does: one that changes
the screen asks for drawing, and exactly `00E0` and a `DXYN` that is not stopped ask for it. -/
theorem window_never_stale :
    (∀ r content seed fs, let S := run r content seed fs
      (machine? r.program content seed = none → S.completed = 0 ∧ S.draws = []) ∧
      ∀ s, machine? r.program content seed = some s →
        (∀ n ≤ S.completed, S.shown n = (s.run ((samples fs).take n)).screen) ∧
        (S.ending = .closed ∧ S.completed = (samples fs).length ∧
            S.window = (s.run (samples fs)).screen ∨
          S.ending = .halted ∧ s.HaltsAt (samples fs) (S.completed + 1) ∧
            S.window = (s.run ((samples fs).take (S.completed + 1))).screen)) ∧
    (∀ (s : Machine) (keys : Keypad),
      ((s.tick keys).screen ≠ s.screen → (s.tick keys).redraw = true) ∧
      ((s.tick keys).redraw = true ↔ s.Executes 0x00E0 ∨
        (∃ w, s.Executes w ∧ w / 0x1000 = 0xD) ∧ (s.tick keys).fault = 0)) := by
  refine ⟨fun r content seed fs => ⟨fun hnone => ?_, fun s hm => ?_⟩, fun s keys =>
    ⟨Machine.redraw_tick_of_screen_ne, Machine.redraw_tick_iff s keys⟩⟩
  · obtain ⟨hdraws, htone⟩ := run_of_no_machine hnone fs
    exact ⟨by rw [completed, htone]; rfl, hdraws⟩
  · have hf := (machine?_blank hm).2
    rcases Machine.runs_or_haltsAt hf (samples fs) with hruns | ⟨f, hhalts⟩
    · obtain ⟨hshown, hend⟩ := shown_of_runs hm hruns
      exact ⟨hshown, .inl hend⟩
    · obtain ⟨q, rfl⟩ := hhalts.exists_succ hf
      obtain ⟨hshown, hend⟩ := shown_of_haltsAt hm hhalts
      exact ⟨hshown, .inr hend⟩

/-- A digit is drawn, and a sprite that lies past the end of memory halts the machine: the window
goes on showing the digit. -/
theorem window_never_stale_lateSprite :
    let program := [0xD0, 0x05, 0xAF, 0xFF, 0xD0, 0x02]
    let s := (Machine.fresh (.ofSeed 0) false).withProgram program
    let fs : List Frame := List.replicate 4 ⟨[], []⟩
    let S := run ⟨"p", false⟩ (.ok program) 0 fs
    S.ending = .halted ∧ S.completed = 2 ∧ S.shown 0 = Screen.blank ∧
      S.window = (s.run ((samples fs).take 3)).screen ∧ S.window[0][0] = 1 := by
  intro program s fs S
  have hm : machine? "p" (.ok program) 0 = some s := machine?_of_fits "p" (by decide) (by decide)
  have hrun : s.HaltsAt (samples fs) 3 ∧ (s.run ((samples fs).take 3)).screen[0][0] = 1 := by
    decide +kernel
  obtain ⟨hhalts, hlit⟩ := hrun
  obtain ⟨c, -, hshows⟩ := run_shows_of_haltsAt (r := ⟨"p", false⟩) hm hhalts
  obtain ⟨hshown, ⟨hclosed, -, -⟩ | ⟨hhalted, -, hwindow⟩⟩ :=
    (window_never_stale.1 ⟨"p", false⟩ (.ok program) 0 fs).2 s hm
  · exact absurd (hclosed.symm.trans hshows.ending) (by decide)
  · rw [hshows.completed_eq] at hwindow
    exact ⟨hhalted, hshows.completed_eq, hshown 0 (Nat.zero_le _), hwindow, hwindow ▸ hlit⟩

end Session

end Chip8
