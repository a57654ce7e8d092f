import Metaflow.Library.Endian

/-!
# The simple decoder

`simple_codec.go`: reads with a length in front, and the loop in which the
decoders of the messages use them.
-/

namespace Metaflow.Codec

open Library List

structure SimpleDecoder where
  buf : List UInt8
  offset : Nat
  err : Nat

namespace SimpleDecoder

/-- `Init` -/
def init (buf : List UInt8) : SimpleDecoder where
  buf := buf
  offset := 0
  err := 0

/-- The bytes `d.buf[start : start + count]`. -/
def slice (d : SimpleDecoder) (start count : Nat) : List UInt8 :=
  (d.buf.drop start).take count

/-- Move the offset on. -/
def advance (d : SimpleDecoder) (count : Nat) : SimpleDecoder :=
  { d with offset := d.offset + count }

def addErr (d : SimpleDecoder) : SimpleDecoder :=
  { d with err := d.err + 1 }

def outOfBuf (d : SimpleDecoder) : String :=
  "offset(" ++ toString d.offset ++ ") out of buf len(" ++ toString d.buf.length ++ ")"

/-- `ReadPB`; `unmarshal` is the method of the message. -/
def readPB {α : Type} (unmarshal : List UInt8 -> Except String α)
    (d : SimpleDecoder) : SimpleDecoder × Except String α :=
  let d := d.advance 4
  if d.buf.length < d.offset then (d.addErr, .error d.outOfBuf)
  else
    let n := littleEndian (d.slice (d.offset - 4) 4)
    let d := d.advance n
    if d.buf.length < d.offset then (d.addErr, .error d.outOfBuf)
    else
      match unmarshal (d.slice (d.offset - n) n) with
      | .error err => (d.addErr, .error err)
      | .ok pb => (d, .ok pb)

/-- `ReadU32` -/
def readU32 (d : SimpleDecoder) : SimpleDecoder × Nat :=
  let d := d.advance 4
  if d.buf.length < d.offset then (d.addErr, 0)
  else (d, littleEndian (d.slice (d.offset - 4) 4))

/-- `ReadBytes`; no bytes are nil. -/
def readBytes (d : SimpleDecoder) : SimpleDecoder × List UInt8 :=
  let (d, l) := d.readU32
  let d := d.advance l
  if d.buf.length < d.offset then (d.addErr, [])
  else (d, d.slice (d.offset - l) l)

def failed (d : SimpleDecoder) : Bool :=
  d.err ≠ 0

def isEnd (d : SimpleDecoder) : Bool :=
  d.buf.length ≤ d.offset

/-- The loop of the decoders, for as many rounds as there are bytes: read until
the end or a failure, and collect what was read. -/
def readAll {α : Type} (read : SimpleDecoder -> SimpleDecoder × α) : Nat -> SimpleDecoder -> List α
  | 0, _ => []
  | rounds + 1, d =>
    if d.isEnd then []
    else
      let (d, item) := read d
      if d.failed then [] else item :: readAll read rounds d

/-- The items of a body, read by one of the two length-prefixed reads. -/
def items {α : Type} (read : SimpleDecoder -> SimpleDecoder × α) (body : List UInt8) : List α :=
  readAll read body.length (init body)

/-- A read that takes payloads behind their length, at any offset. -/
def ReadsPrefixed {α : Type} (read : SimpleDecoder -> SimpleDecoder × α) (payload : List UInt8)
    (item : α) : Prop :=
  ∀ front tail : List UInt8,
    read ⟨front ++ (leBytes 4 payload.length ++ payload ++ tail), front.length, 0⟩ =
      (⟨front ++ (leBytes 4 payload.length ++ payload ++ tail),
        front.length + 4 + payload.length, 0⟩, item)

section

variable {front payload tail : List UInt8}

theorem slice_length (offset err : Nat) :
    (SimpleDecoder.mk (front ++ (leBytes 4 payload.length ++ payload ++ tail))
      offset err).slice front.length 4 = leBytes 4 payload.length := by
  rw [slice, drop_left' rfl, append_assoc, take_left' (length_leBytes _ _)]

theorem slice_payload (offset err : Nat) :
    (SimpleDecoder.mk (front ++ (leBytes 4 payload.length ++ payload ++ tail))
      offset err).slice (front.length + 4) payload.length = payload := by
  have before : (front ++ leBytes 4 payload.length).length = front.length + 4 := by simp
  rw [slice, append_assoc, ← append_assoc, drop_left' before, take_left' rfl]

end

theorem length_inside (front payload tail : List UInt8) :
    ¬ (front ++ (leBytes 4 payload.length ++ payload ++ tail)).length < front.length + 4 := by
  simp

theorem payload_inside (front payload tail : List UInt8) :
    ¬ (front ++ (leBytes 4 payload.length ++ payload ++ tail)).length <
      front.length + 4 + payload.length := by
  simp
  omega

/-- `ReadPB` gives back what `Unmarshal` makes of the payload. -/
theorem readPB_readsPrefixed {α : Type} {unmarshal : List UInt8 -> Except String α}
    {item : α} (fits : payload.length < 2 ^ 32) (isRead : unmarshal payload = .ok item) :
    ReadsPrefixed (readPB unmarshal) payload (.ok item) := by
  intro front tail
  have size_eq := littleEndian_leBytes_of_lt (show payload.length < 256 ^ 4 by omega)
  simp only [readPB, advance, if_neg (length_inside front payload tail),
    Nat.add_sub_cancel, slice_length, size_eq,
    if_neg (payload_inside front payload tail), slice_payload, isRead]

theorem readBytes_readsPrefixed (fits : payload.length < 2 ^ 32) :
    ReadsPrefixed readBytes payload payload := by
  intro front tail
  have size_eq := littleEndian_leBytes_of_lt (show payload.length < 256 ^ 4 by omega)
  simp only [readBytes, readU32, advance,
    if_neg (length_inside front payload tail), Nat.add_sub_cancel,
    slice_length, size_eq, if_neg (payload_inside front payload tail),
    slice_payload]

/-- Bytes that begin with a whole payload behind its length. -/
theorem exists_payload (whole : 4 + littleEndian (rest.take 4) ≤ rest.length) :
    ∃ payload tail, rest = leBytes 4 payload.length ++ payload ++ tail ∧
      payload.length < 2 ^ 32 ∧ payload = (rest.drop 4).take (littleEndian (rest.take 4)) := by
  have four : (rest.take 4).length = 4 := length_take_of_le (by omega)
  have number := leBytes_littleEndian (rest.take 4)
  have size := littleEndian_leBytes 4 (littleEndian (rest.take 4))
  rw [four] at number
  rw [number] at size
  have length : ((rest.drop 4).take (littleEndian (rest.take 4))).length =
      littleEndian (rest.take 4) := length_take_of_le (by rw [length_drop]; omega)
  refine ⟨_, (rest.drop 4).drop (littleEndian (rest.take 4)), ?_, ?_, rfl⟩
  · rw [length, number, append_assoc, take_append_drop, take_append_drop]
  · rw [length, size]
    exact Nat.mod_lt _ (by decide)

section

variable {α : Type} (unmarshal : List UInt8 -> Except String α)

/-- Bytes at which `ReadPB` fails: no whole payload, or one that is no message. -/
def Broken (rest : List UInt8) : Prop :=
  4 + littleEndian (rest.take 4) ≤ rest.length ->
    ∃ err, unmarshal ((rest.drop 4).take (littleEndian (rest.take 4))) = .error err

/-- The messages of all payloads up to the end or to broken bytes. -/
def Decodes (rest : List UInt8) (items : List (Except String α)) : Prop :=
  ∃ (written : List (List UInt8 × α)) (tail : List UInt8),
    rest = (written.flatMap fun x => leBytes 4 x.1.length ++ x.1) ++ tail ∧
    items = written.map (.ok ·.2) ∧ (∀ x ∈ written, unmarshal x.1 = .ok x.2) ∧
    (tail = [] ∨ Broken unmarshal tail)

theorem failed_readPB_of_broken {front : List UInt8} (broken : Broken unmarshal rest) :
    (readPB unmarshal ⟨front ++ rest, front.length, 0⟩).1.failed := by
  simp only [readPB, advance, slice, Nat.add_sub_cancel, drop_left' rfl, length_append]
  split_ifs with short long
  · rfl
  · rfl
  · obtain ⟨err, isErr⟩ := broken (by omega)
    rw [← drop_drop, drop_left' rfl, isErr]
    rfl

theorem decodes_readAll (front : List UInt8) (enough : rest.length ≤ rounds) :
    Decodes unmarshal rest
      (readAll (readPB unmarshal) rounds ⟨front ++ rest, front.length, 0⟩) := by
  induction rounds generalizing front rest with
  | zero => exact ⟨[], rest, rfl, rfl, by simp, .inl (length_eq_zero_iff.mp (by omega))⟩
  | succ rounds ih =>
    by_cases isEmpty : rest = []
    · subst isEmpty
      exact ⟨[], [], rfl, by simp [readAll, isEnd], by simp, .inl rfl⟩
    have notEnd : isEnd ⟨front ++ rest, front.length, 0⟩ = false := by
      simp [isEnd, isEmpty]
    by_cases broken : Broken unmarshal rest
    · refine ⟨[], rest, rfl, ?_, by simp, .inr broken⟩
      simp only [readAll, notEnd, failed_readPB_of_broken unmarshal broken]
      rfl
    · obtain ⟨whole, notErr⟩ := Classical.not_imp.mp broken
      obtain ⟨payload, tail, rfl, fits, isPayload⟩ := exists_payload whole
      rw [← isPayload] at notErr
      cases isRead : unmarshal payload with
      | error err => exact absurd ⟨err, isRead⟩ notErr
      | ok item =>
        simp only [length_append, length_leBytes] at enough
        obtain ⟨written, last, rfl, isAll, reads, ends⟩ := @ih tail
          (front ++ (leBytes 4 payload.length ++ payload)) (by omega)
        refine ⟨(payload, item) :: written, last, by simp, ?_, ?_, ends⟩
        · rw [readAll, notEnd, readPB_readsPrefixed fits isRead front]
          simp only [length_append, length_leBytes, append_assoc, ← Nat.add_assoc] at isAll ⊢
          simp [failed, isAll]
        · simpa [isRead] using reads

/-- Whatever the bytes of a body are, the loop reads exactly the messages at its front. -/
theorem decodes_items (body : List UInt8) :
    Decodes unmarshal body (items (readPB unmarshal) body) :=
  decodes_readAll unmarshal [] (Nat.le_refl _)

end

variable {α β : Type} {read : SimpleDecoder -> SimpleDecoder × α} {payload : β -> List UInt8}
  {item : β -> α} {written : List β}
  (reads : ∀ x ∈ written, ReadsPrefixed read (payload x) (item x))
include reads

theorem readAll_of_readsPrefixed (front : List UInt8)
    (enough : written.length ≤ rounds) : readAll read rounds ⟨front ++ written.flatMap fun x =>
          leBytes 4 (payload x).length ++ payload x, front.length, 0⟩ =
      written.map item := by
  induction written generalizing front rounds with
  | nil =>
    cases rounds with
    | zero => rfl
    | succ rounds => simp [readAll, isEnd]
  | cons x written ih =>
    obtain ⟨rounds, rfl⟩ : ∃ fewer, rounds = fewer + 1 :=
      Nat.exists_eq_add_one_of_ne_zero (by
        rintro rfl
        simp at enough)
    have rest := ih (fun y isIn => reads y (mem_cons_of_mem _ isIn))
      (front ++ (leBytes 4 (payload x).length ++ payload x))
      (Nat.le_of_succ_le_succ enough)
    have taken := reads x mem_cons_self front
      (written.flatMap fun x => leBytes 4 (payload x).length ++ payload x)
    rw [length_append, length_append, length_leBytes, append_assoc, ← Nat.add_assoc] at rest
    rw [flatMap_cons, readAll, if_neg]
    · simp only [taken, failed, rest]
      simp
    · simp [isEnd]

/-- A body of payloads behind their lengths is read back. -/
theorem items_of_readsPrefixed :
    items read (written.flatMap fun x => leBytes 4 (payload x).length ++ payload x) =
      written.map item := by
  have enough : written.length ≤ (written.flatMap fun x =>
      leBytes 4 (payload x).length ++ payload x).length := by
    induction written with
    | nil => simp
    | cons x written ih =>
      have rest := ih fun y isIn =>
        reads y (mem_cons_of_mem _ isIn)
      rw [flatMap_cons, length_append, length_cons, length_append, length_leBytes]
      omega
  exact readAll_of_readsPrefixed reads [] enough

end SimpleDecoder
end Metaflow.Codec
