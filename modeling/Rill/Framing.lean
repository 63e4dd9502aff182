import Rill.Bytes

/-!
# Length-prefixed frames on a byte stream

`writeFrame` is the encoding of a body, a 32-bit big-endian length in front of it. `readFrame`
looks at the bytes a reader has taken from the stream so far: it asks for more, refuses an
announced length above the limit, or yields the body and what follows it.
-/

namespace Rill

def maxMessageLen : ℕ := 1048576

inductive FrameRead where
  | incomplete
  | tooLong
  | frame (body rest : Bytes)
  deriving DecidableEq

def readFrame (buf : Bytes) : FrameRead :=
  if buf.length < 4 then .incomplete
  else
    let len := readBE (buf.take 4)
    if maxMessageLen < len then .tooLong
    else if buf.length < 4 + len then .incomplete
    else .frame (field 4 len buf) (buf.drop (4 + len))

def writeFrame (body : Bytes) : Option Bytes :=
  if 4294967295 < body.length then none else some (beBytes 4 body.length ++ body)

theorem writeFrame_eq_some {body f : Bytes} (h : writeFrame body = some f) :
    body.length ≤ 4294967295 ∧ f = beBytes 4 body.length ++ body := by
  unfold writeFrame at h
  split_ifs at h with hlen
  exact ⟨by omega, (Option.some.inj h).symm⟩

theorem readBE_take_frame {body f : Bytes} (h : writeFrame body = some f) (rest : Bytes) :
    readBE ((f ++ rest).take 4) = body.length := by
  obtain ⟨hlen, rfl⟩ := writeFrame_eq_some h
  have hmod : body.length % 256 ^ 4 = body.length := Nat.mod_eq_of_lt (by omega)
  rw [List.append_assoc, List.take_left' (length_beBytes 4 _), readBE_beBytes, hmod]

theorem length_frame {body f : Bytes} (h : writeFrame body = some f) : f.length = 4 + body.length := by
  obtain ⟨-, rfl⟩ := writeFrame_eq_some h
  simp

theorem readFrame_append {body f : Bytes} (h : writeFrame body = some f) (rest : Bytes) :
    readFrame (f ++ rest) = if maxMessageLen < body.length then .tooLong else .frame body rest := by
  have hlen := length_frame h
  have hshort : ¬ (f ++ rest).length < 4 := by
    rw [List.length_append]
    omega
  rw [readFrame, if_neg hshort, readBE_take_frame h]
  obtain ⟨-, rfl⟩ := writeFrame_eq_some h
  have hfull : ¬ (beBytes 4 body.length ++ body ++ rest).length < 4 + body.length := by simp
  have hbody : field 4 body.length (beBytes 4 body.length ++ body ++ rest) = body := by
    rw [List.append_assoc, field_append_of_length_le (by simp)]
    simpa using field_zero_append rfl
  have hrest : (beBytes 4 body.length ++ body ++ rest).drop (4 + body.length) = rest :=
    List.drop_left' (by simp)
  simp only [if_neg hfull, hbody, hrest]

theorem readFrame_take_ne_frame {body f : Bytes} (h : writeFrame body = some f) {k : ℕ}
    (hk : k < f.length) (b r : Bytes) : readFrame (f.take k) ≠ .frame b r := by
  have hlen := length_frame h
  unfold readFrame
  by_cases hshort : (f.take k).length < 4
  · rw [if_pos hshort]
    simp
  · rw [List.length_take] at hshort
    have htake : (f.take k).take 4 = f.take 4 := by
      rw [List.take_take]
      congr 1
      omega
    have hread : readBE (f.take 4) = body.length := by simpa using readBE_take_frame h []
    have hpart : (f.take k).length < 4 + body.length := by
      rw [List.length_take]
      omega
    simp only [List.length_take] at hpart
    simp only [List.length_take, htake, hread, if_neg hshort, if_pos hpart]
    split_ifs <;> simp

end Rill
