import Mathlib.Data.List.Infix

namespace Framing

/-- A number below `2 ^ 32`, the highest byte first. -/
def bigEndian4 (n : Nat) : List UInt8 :=
  [UInt8.ofNat (n / 16777216), UInt8.ofNat (n / 65536), UInt8.ofNat (n / 256), UInt8.ofNat n]

/-- The number that bytes spell, the first one the highest. -/
def spelled (bytes : List UInt8) : Nat := bytes.foldl (fun n b => n * 256 + b.toNat) 0

theorem spelled_bigEndian4 {n : Nat} (small : n < 4294967296) : spelled (bigEndian4 n) = n := by
  simp only [spelled, bigEndian4, List.foldl_cons, List.foldl_nil, UInt8.toNat_ofNat']
  omega

/-- What comes of waiting for bytes on a stream that ends. -/
inductive Received (α : Type*)
  | complete (value : α) (rest : List UInt8)
  | incomplete
  deriving DecidableEq

/-- Exactly so many bytes. -/
def readExactly (n : Nat) (stream : List UInt8) : Received (List UInt8) :=
  if n ≤ stream.length then .complete (stream.take n) (stream.drop n) else .incomplete

/-- What a reader of frames makes of a stream. -/
inductive FrameRead
  | payload (bytes rest : List UInt8)
  | incomplete
  | invalidLength
  deriving DecidableEq

/-- A length between one and the limit, and then as many bytes. -/
def readFrame (limit : Nat) (stream : List UInt8) : FrameRead :=
  match readExactly 4 stream with
  | .incomplete => .incomplete
  | .complete header later =>
    if spelled header = 0 ∨ limit < spelled header then .invalidLength
    else
      match readExactly (spelled header) later with
      | .incomplete => .incomplete
      | .complete bytes rest => .payload bytes rest

def frame (payload : List UInt8) : List UInt8 := bigEndian4 payload.length ++ payload

theorem readExactly_append (bytes rest : List UInt8) : readExactly bytes.length (bytes ++ rest) = .complete bytes rest := by
  rw [readExactly, if_pos (by simp), List.take_left, List.drop_left]

theorem readExactly_short {n : Nat} {stream : List UInt8} (short : stream.length < n) :
    readExactly n stream = .incomplete := if_neg (by omega)

variable {limit : Nat} {payload : List UInt8}

/-- A message behind its length is read, whatever comes after it. -/
theorem readFrame_of_header {header : List UInt8} (four : header.length = 4) (length : spelled header = payload.length)
    (some' : payload ≠ []) (fits : payload.length ≤ limit) (rest : List UInt8) :
    readFrame limit (header ++ payload ++ rest) = .payload payload rest := by
  have positive := List.length_pos_of_ne_nil some'
  have first : readExactly 4 (header ++ payload ++ rest) = .complete header (payload ++ rest) := by
    rw [List.append_assoc, ← four]
    exact readExactly_append header _
  rw [readFrame, first]
  dsimp only
  rw [length, if_neg (by omega), readExactly_append]

/-- Of a frame that is cut short nothing is read. -/
theorem readFrame_cut (some' : payload ≠ []) (fits : payload.length ≤ limit) (small : limit < 4294967296)
    {cut : List UInt8} (short : cut <+: frame payload) (proper : cut ≠ frame payload) :
    readFrame limit cut = .incomplete := by
  have positive := List.length_pos_of_ne_nil some'
  have length := spelled_bigEndian4 (show payload.length < 4294967296 by omega)
  obtain ⟨missing, whole⟩ := short
  have lengths := congrArg List.length whole
  have four : (bigEndian4 payload.length).length = 4 := rfl
  rw [List.length_append, frame, List.length_append, four] at lengths
  have cutShort : cut.length < 4 + payload.length := by
    rcases missing with - | ⟨b, missing⟩
    · exact absurd (by simpa using whole) proper
    · rw [List.length_cons] at lengths
      omega
  by_cases headless : cut.length < 4
  · rw [readFrame, readExactly_short headless]
  · -- The header is there, and fewer bytes than it announces.
    have header : cut.take 4 = bigEndian4 payload.length := by
      have front := congrArg (List.take 4) whole
      rwa [List.take_append_of_le_length (by omega), frame, List.take_left' four] at front
    rw [readFrame, readExactly, if_pos (by omega)]
    dsimp only
    rw [header, length, if_neg (by omega), readExactly_short (by rw [List.length_drop]; omega)]

/-- What is read has stood there behind its length. -/
theorem readFrame_eq_payload {stream rest : List UInt8} : readFrame limit stream = .payload payload rest ↔
    ∃ header, header.length = 4 ∧ spelled header = payload.length ∧ stream = header ++ payload ++ rest ∧
      payload ≠ [] ∧ payload.length ≤ limit := by
  constructor
  · intro read
    unfold readFrame readExactly at read
    split at read
    · cases read
    · rename_i header later first
      split at first
      · cases first
        split at read
        · cases read
        · split at read
          · cases read
          · rename_i bytes later second
            split at second
            · cases second
              cases read
              have four : (stream.take 4).length = 4 := by rw [List.length_take]; omega
              have whole : (stream.drop 4).take (spelled (stream.take 4)) ≠ [] := by
                refine List.ne_nil_of_length_pos ?_
                rw [List.length_take]
                omega
              refine ⟨stream.take 4, four, ?_, ?_, whole, ?_⟩
              · rw [List.length_take]
                omega
              · rw [List.append_assoc, List.take_append_drop, List.take_append_drop]
              · rw [List.length_take]
                omega
            · cases second
      · cases first
  · rintro ⟨header, four, length, rfl, some', fits⟩
    exact readFrame_of_header four length some' fits rest

end Framing
