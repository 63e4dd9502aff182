import Mathlib

/-!
# The replay window of a receive direction

`ReplayWindow` is the 1024-slot bitmap of `rill-core/src/frame/mod.rs`, kept as sixteen words of
64 bits. `checkAndMark` follows the source: a number left of the window is refused, a number
right of it moves the window and clears the whole bitmap, and the slot is then tested and set.
-/

namespace Rill

structure ReplayWindow where
  base : ℕ
  bitmap : Vector (BitVec 64) 16
  deriving DecidableEq

namespace ReplayWindow

def cleared (base : ℕ) : ReplayWindow := ⟨base, Vector.replicate 16 0⟩

def new : ReplayWindow := cleared 0

def advance (w : ReplayWindow) (seq : ℕ) : ReplayWindow :=
  if w.base + 1024 ≤ seq then cleared (w.base + ((seq - w.base + 1) - 1024)) else w

def word (w : ReplayWindow) (slot : ℕ) : BitVec 64 := w.bitmap[slot / 64]?.getD 0

def bit (slot : ℕ) : BitVec 64 := 1#64 <<< (slot % 64)

def marked (w : ReplayWindow) (slot : ℕ) : Bool := w.word slot &&& bit slot != 0

def mark (w : ReplayWindow) (slot : ℕ) : ReplayWindow :=
  { w with bitmap := w.bitmap.setIfInBounds (slot / 64) (w.word slot ||| bit slot) }

def checkAndMark (w : ReplayWindow) (seq : UInt32) : Bool × ReplayWindow :=
  if seq.toNat < w.base then (false, w)
  else
    let w := w.advance seq.toNat
    let slot := seq.toNat - w.base
    if w.marked slot then (false, w) else (true, w.mark slot)

theorem marked_eq_getLsbD (w : ReplayWindow) (slot : ℕ) :
    w.marked slot = (w.word slot).getLsbD (slot % 64) := by
  have hlt : slot % 64 < 64 := Nat.mod_lt _ (by decide)
  rw [marked, bit, ← BitVec.twoPow_eq, BitVec.and_twoPow]
  cases hbit : (w.word slot).getLsbD (slot % 64) with
  | false => simp
  | true =>
    simp only [if_true, bne_iff_ne, ne_eq]
    intro hz
    have hone := congrArg (fun v => BitVec.getLsbD v (slot % 64)) hz
    simp [hlt] at hone

theorem word_mark_same {w : ReplayWindow} {slot : ℕ} (hs : slot < 1024) {other : ℕ}
    (hw : slot / 64 = other / 64) : (w.mark slot).word other = w.word slot ||| bit slot := by
  have hword : slot / 64 < 16 := by omega
  rw [word, ← hw, mark, Vector.getElem?_setIfInBounds_self_of_lt hword, Option.getD_some]

theorem word_mark_other {w : ReplayWindow} {slot other : ℕ} (hw : slot / 64 ≠ other / 64) :
    (w.mark slot).word other = w.word other := by
  rw [word, mark, Vector.getElem?_setIfInBounds_ne hw, word]

theorem marked_mark {w : ReplayWindow} {slot other : ℕ} (hs : slot < 1024) :
    (w.mark slot).marked other = (w.marked other || decide (other = slot)) := by
  rw [marked_eq_getLsbD, marked_eq_getLsbD]
  by_cases hw : slot / 64 = other / 64
  · have hlt : slot % 64 < 64 := Nat.mod_lt _ (by decide)
    have hiff : slot % 64 = other % 64 ↔ other = slot := by omega
    have hsame : w.word other = w.word slot := by rw [word, word, hw]
    rw [word_mark_same hs hw, BitVec.getLsbD_or, bit, ← BitVec.twoPow_eq, BitVec.getLsbD_twoPow, hsame]
    simp only [hlt, hiff, decide_true, Bool.true_and]
  · have hne : other ≠ slot := fun h => hw (by rw [h])
    rw [word_mark_other hw]
    simp [hne]

@[simp] theorem marked_cleared (b slot : ℕ) : (cleared b).marked slot = false := by
  have hword : (cleared b).word slot = 0 := by
    by_cases h : slot / 64 < 16
    · simp [word, cleared, h]
    · rw [word, Vector.getElem?_eq_none (by omega)]
      rfl
  simp [marked, hword]

theorem advance_of_lt {w : ReplayWindow} {seq : ℕ} (h : seq < w.base + 1024) : w.advance seq = w :=
  if_neg (by omega)

theorem advance_of_le {w : ReplayWindow} {seq : ℕ} (h : w.base + 1024 ≤ seq) :
    w.advance seq = cleared (seq + 1 - 1024) := by
  have hb : w.base + ((seq - w.base + 1) - 1024) = seq + 1 - 1024 := by omega
  rw [advance, if_pos h, hb]

/-- After the window has moved, the slot of the number lies inside the bitmap, so the array
accesses of the source are in bounds. -/
theorem slot_lt (w : ReplayWindow) (seq : ℕ) : seq - (w.advance seq).base < 1024 := by
  by_cases h : w.base + 1024 ≤ seq
  · rw [advance_of_le h]
    change seq - (seq + 1 - 1024) < 1024
    omega
  · rw [advance_of_lt (by omega)]
    omega

theorem checkAndMark_of_not_fresh {w : ReplayWindow} {seq : UInt32}
    (h : (w.checkAndMark seq).1 = false) : (w.checkAndMark seq).2 = w := by
  unfold checkAndMark at h ⊢
  by_cases hl : seq.toNat < w.base
  · rw [if_pos hl]
  · rw [if_neg hl] at h ⊢
    by_cases hw : w.base + 1024 ≤ seq.toNat
    · simp [advance_of_le hw] at h
    · simp only [advance_of_lt (not_le.mp hw)] at h ⊢
      split_ifs at h ⊢
      rfl

theorem checkAndMark_again {w : ReplayWindow} {seq : UInt32} (h : (w.checkAndMark seq).1 = true) :
    ((w.checkAndMark seq).2.checkAndMark seq).1 = false := by
  have hslot := w.slot_lt seq.toNat
  have hl : ¬ seq.toNat < w.base := by
    intro hl
    rw [checkAndMark, if_pos hl] at h
    exact Bool.noConfusion h
  have hbase : (w.advance seq.toNat).base ≤ seq.toNat := by
    by_cases hw : w.base + 1024 ≤ seq.toNat
    · rw [advance_of_le hw]
      change seq.toNat + 1 - 1024 ≤ seq.toNat
      omega
    · rw [advance_of_lt (not_le.mp hw)]
      omega
  have hstep : (w.checkAndMark seq).2 =
      (w.advance seq.toNat).mark (seq.toNat - (w.advance seq.toNat).base) := by
    rw [checkAndMark, if_neg hl] at h ⊢
    dsimp only at h ⊢
    split_ifs at h ⊢
    rfl
  have hmark : ∀ slot, ((w.advance seq.toNat).mark slot).base = (w.advance seq.toNat).base :=
    fun _ => rfl
  rw [hstep, checkAndMark, if_neg (by rw [hmark]; omega)]
  dsimp only
  rw [advance_of_lt (by rw [hmark]; omega), hmark, if_pos]
  rw [marked_mark hslot]
  simp

theorem checkAndMark_refused_iff {w : ReplayWindow} {seq : UInt32} :
    (w.checkAndMark seq).1 = false ↔ seq.toNat < w.base ∨
      seq.toNat < w.base + 1024 ∧ w.marked (seq.toNat - w.base) = true := by
  rw [checkAndMark]
  by_cases hl : seq.toNat < w.base
  · rw [if_pos hl]
    exact iff_of_true rfl (Or.inl hl)
  · rw [if_neg hl, or_iff_right hl]
    by_cases hw : w.base + 1024 ≤ seq.toNat
    · have hnot : ¬ seq.toNat < w.base + 1024 := not_lt.mpr hw
      simp [advance_of_le hw, hnot]
    · have hin := not_le.mp hw
      rw [and_iff_right hin]
      simp only [advance_of_lt hin]
      split_ifs with hmarked
      · exact iff_of_true rfl hmarked
      · exact iff_of_false not_false hmarked

/-- Receiving the number makes the window forget one that stays to the right of its base. -/
def forgets (w : ReplayWindow) (seq : UInt32) : Bool :=
  decide (w.base + 1024 ≤ seq.toNat) &&
    (List.range 1024).any fun slot => w.marked slot && decide (seq.toNat < w.base + slot + 1024)

/-- A number that is refused stays refused until the window forgets. -/
theorem refused_of_not_forgets {w : ReplayWindow} {s q : UInt32}
    (hs : (w.checkAndMark s).1 = false) (hq : w.forgets q = false) :
    ((w.checkAndMark q).2.checkAndMark s).1 = false := by
  cases hfresh : (w.checkAndMark q).1 with
  | false => rwa [checkAndMark_of_not_fresh hfresh]
  | true =>
    have hl : ¬ q.toNat < w.base := fun hl => by
      rw [checkAndMark, if_pos hl] at hfresh
      nomatch hfresh
    rw [checkAndMark_refused_iff] at hs ⊢
    rw [checkAndMark, if_neg hl] at hfresh ⊢
    by_cases hw : w.base + 1024 ≤ q.toNat
    · -- The window moves; what it knew now lies to the left of it.
      simp only [advance_of_le hw, marked_cleared, Bool.false_eq_true, if_false]
      refine Or.inl ?_
      change s.toNat < q.toNat + 1 - 1024
      rcases hs with hs | ⟨hin, hmarked⟩
      · omega
      · by_contra hbase
        have hforgets : w.forgets q = true := by
          rw [forgets, Bool.and_eq_true, decide_eq_true_eq, List.any_eq_true]
          refine ⟨hw, s.toNat - w.base, List.mem_range.mpr (by omega), ?_⟩
          rw [hmarked, Bool.true_and, decide_eq_true_eq]
          omega
        exact Bool.false_ne_true (hq.symm.trans hforgets)
    · simp only [advance_of_lt (not_le.mp hw)] at hfresh ⊢
      split_ifs at hfresh ⊢ with hmark
      refine hs.imp id fun ⟨hin, hmarked⟩ => ⟨hin, ?_⟩
      change (w.mark (q.toNat - w.base)).marked (s.toNat - w.base) = true
      rw [marked_mark (by omega), hmarked, Bool.true_or]

end ReplayWindow

end Rill
