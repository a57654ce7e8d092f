import Metaflow.Datatype.PortMerge
import Metaflow.Library.Run

/-!
# Redis

`decode` of `redis.rs`. The loop over an array takes its number from the
payload, and an element that does not decode neither ends the loop nor consumes
a byte. There are no more iterations than the headers announce.
-/

namespace Metaflow.ProtocolLogs.Redis

open Library

/-- The result of a call, and the iterations of its loops. -/
structure Run where
  decoded : Option (List UInt8 × Nat × Bool)
  iterations : Nat := 0
  deriving DecidableEq

/-- The place of the first separator. -/
def findSeparator : List UInt8 -> Option Nat
  | [] => none
  | byte :: rest =>
    if byte = 13 ∧ rest.head? = some 10 then some 0 else (findSeparator rest).map (· + 1)

/-- `parse::<isize>` -/
def parseIsize : List Char -> Option Int
  | ['-'] => none
  | '-' :: digits =>
    ((Datatype.digitsValue 0 digits).filter (· ≤ 9223372036854775808)).map fun value => -value
  | digits => (Datatype.atoi digits).map Int.ofNat

/-- A number and the bytes it takes with its separator; it has at least one
digit. -/
def decodeInteger (payload : List UInt8) : Option (Int × Nat) := do
  let separatorPos <- findSeparator payload
  if separatorPos < 1 then none
  else
    let integer <- parseIsize ((payload.take separatorPos).map Char.ofUInt8)
    some (integer, separatorPos + 2)

/-- A bulk string. -/
def decodeDollor (payload : List UInt8) (strict : Bool) : Option (List UInt8 × Nat) := do
  let (nextDataLen, subOffset) <- decodeInteger (payload.drop 1)
  if nextDataLen ≤ 0 then some ((payload.drop 1).take (subOffset - 2), 1 + subOffset)
  else
    let offset := 1 + subOffset
    let stop := offset + nextDataLen.toNat
    if payload.length < stop + 2 ∨ payload[stop]? ≠ some 13 ∨ payload[stop + 1]? ≠ some 10 then
      if strict then none else some (payload.drop offset, payload.length)
    else some ((payload.drop offset).take nextDataLen.toNat, stop + 2)

/-- A line with its first byte, cut off at a limit. -/
def decodeStr (payload : List UInt8) (limit : Nat) : List UInt8 × Nat :=
  let separatorPos := (findSeparator payload).getD payload.length
  if limit < separatorPos then (payload.take limit, limit)
  else (payload.take separatorPos, separatorPos)

section Elements

variable (decode : List UInt8 -> Option Run) (strict : Bool) (payload : List UInt8)

/-- The loop over the elements of an array. -/
def elements : (rounds : Nat) -> (retVec : List UInt8) -> (offset iterations : Nat) -> Option Run
  | 0, retVec, offset, iterations => some ⟨some (retVec, offset, false), iterations⟩
  | rounds + 1, retVec, offset, iterations => do
    let element <- decode (payload.drop offset)
    let iterations := iterations + element.iterations + 1
    match element.decoded with
    | none => elements rounds retVec offset iterations
    | some (subVec, subOffset, _) =>
      if subOffset = 0 then
        some ⟨if strict then none else some (retVec, offset, false), iterations⟩
      else
        let retVec := if retVec = [] then subVec else retVec ++ 32 :: subVec
        if payload.length ≤ offset + subOffset then
          some ⟨some (retVec, payload.length, false), iterations⟩
        else elements rounds retVec (offset + subOffset) iterations

/-- An array. -/
def decodeAsterisk : Option Run :=
  match decodeInteger (payload.drop 1) with
  | none => some { decoded := none }
  | some (nextDataNum, subOffset) =>
    if nextDataNum ≤ 0 then
      some { decoded := some ((payload.drop 1).take (subOffset - 2), 1 + subOffset, false) }
    else elements decode strict payload nextDataNum.toNat [] (1 + subOffset) 0

end Elements

/-- `decode` of arrays that are nested less than `depth` times. -/
def decodeWithin (strict : Bool) : (depth : Nat) -> List UInt8 -> Option Run
  | 0, _ => none
  | depth + 1, payload =>
    if payload.length < 2 then some { decoded := none }
    else
      match Char.ofUInt8 (payload.headD 0) with
      | '*' => decodeAsterisk (decodeWithin strict depth) strict payload
      | '+' | ':' =>
        let (context, used) := decodeStr payload 32
        some { decoded := some (context, used, false) }
      | '-' =>
        let (context, used) := decodeStr payload 256
        some { decoded := some (context, used, true) }
      | '$' =>
        some { decoded := (decodeDollor payload strict).map fun (context, used) =>
          (context, used, false) }
      | _ => some { decoded := none }

/-- An array is nested less often than the payload has bytes. -/
def decode (payload : List UInt8) (strict : Bool) : Option Run :=
  decodeWithin strict (payload.length + 1) payload

/-- The number of elements in the header of an array at the start. -/
def headerCount (payload : List UInt8) : Nat :=
  if payload.head? = some 42 then
    ((decodeInteger (payload.drop 1)).map fun number => number.1.toNat).getD 0
  else 0

/-- The numbers of all headers of arrays, wherever they stand. -/
def announced : List UInt8 -> Nat
  | [] => 0
  | byte :: rest => headerCount (byte :: rest) + announced rest

/-- What is announced behind some bytes is announced. -/
theorem announced_drop_le (payload : List UInt8) (count : Nat) :
    announced (payload.drop count) ≤ announced payload := by
  induction payload generalizing count with
  | nil => simp
  | cons byte rest ih =>
    cases count with
    | zero => exact Nat.le_refl _
    | succ count => exact Nat.le_add_left_of_le (ih count)

/-- So is the number of the header in front of them. -/
theorem headerCount_add_announced_le (payload : List UInt8) (positive : 0 < count) :
    headerCount payload + announced (payload.drop count) ≤ announced payload := by
  obtain _ | ⟨byte, rest⟩ := payload
  · simp [headerCount]
  · obtain _ | count := count
    · cases positive
    · exact Nat.add_le_add_left (announced_drop_le rest count) _

/-- What has been decoded has taken some bytes, and no more iterations than are
announced in them; a failed call has none. -/
structure Sound (payload : List UInt8) (run : Run) : Prop where
  of_decoded : ∀ result ∈ run.decoded, 0 < result.2.1 ∧ result.2.1 ≤ payload.length ∧
    run.iterations + announced (payload.drop result.2.1) ≤ announced payload
  of_undecoded : run.decoded = none -> run.iterations = 0

theorem Sound.of_used (positive : 0 < used) (inside : used ≤ payload.length)
    (counted : iterations + announced (payload.drop used) ≤ announced payload)
    (context : List UInt8) (isError : Bool) :
    Sound payload ⟨some (context, used, isError), iterations⟩ :=
  ⟨by rintro _ ⟨⟩; exact ⟨positive, inside, counted⟩, by rintro ⟨⟩⟩

/-- A value without a loop. -/
theorem Sound.of_leaf (positive : 0 < used) (inside : used ≤ payload.length)
    (context : List UInt8) (isError : Bool) :
    Sound payload { decoded := some (context, used, isError) } :=
  .of_used positive inside (by simpa using announced_drop_le payload used) _ _

theorem Sound.none (payload : List UInt8) : Sound payload { decoded := none } :=
  ⟨by rintro _ ⟨⟩, fun _ => rfl⟩

theorem findSeparator_inside (isPos : findSeparator payload = some pos) :
    pos + 2 ≤ payload.length := by
  induction payload generalizing pos with
  | nil => cases isPos
  | cons byte rest ih =>
    rw [findSeparator] at isPos
    rw [List.length_cons]
    split_ifs at isPos with isSeparator
    · cases isPos
      have := List.length_pos_of_mem (List.mem_of_mem_head? isSeparator.2)
      omega
    · obtain ⟨before, found, rfl⟩ := Option.map_eq_some_iff.mp isPos
      have := ih found
      omega

theorem decodeInteger_inside (isInteger : decodeInteger payload = some (integer, used)) :
    2 < used ∧ used ≤ payload.length := by
  obtain ⟨pos, isPos, rest⟩ := Option.bind_eq_some_iff.mp isInteger
  have := findSeparator_inside isPos
  split_ifs at rest
  obtain ⟨_, _, ⟨⟩⟩ := Option.bind_eq_some_iff.mp rest
  omega

theorem decodeDollor_inside (isString : decodeDollor payload strict = some (context, used)) :
    0 < used ∧ used ≤ payload.length := by
  obtain ⟨⟨number, subOffset⟩, isNumber, rest⟩ := Option.bind_eq_some_iff.mp isString
  have inside := decodeInteger_inside isNumber
  rw [List.length_drop] at inside
  simp only at rest
  split_ifs at rest
  all_goals
    cases rest
    omega

theorem decodeStr_sound (long : ¬ payload.length < 2)
    (isFirst : Char.ofUInt8 (payload.headD 0) = first) (notReturn : first ≠ '\r')
    (positive : 0 < limit) (isError : Bool) :
    Sound payload { decoded := some ((decodeStr payload limit).1,
      (decodeStr payload limit).2, isError) } := by
  obtain _ | ⟨byte, rest⟩ := payload
  · exact absurd Nat.zero_lt_two long
  · have notHere : ¬ (byte = 13 ∧ rest.head? = some 10) := by
      rintro ⟨rfl, -⟩
      exact notReturn isFirst.symm
    have inside : 0 < (findSeparator (byte :: rest)).getD (byte :: rest).length ∧
        (findSeparator (byte :: rest)).getD (byte :: rest).length ≤ (byte :: rest).length := by
      rw [findSeparator, if_neg notHere, List.length_cons]
      cases found : findSeparator rest with
      | none => exact ⟨Nat.succ_pos _, Nat.le_refl _⟩
      | some pos =>
        have := findSeparator_inside found
        exact ⟨Nat.succ_pos _, show pos + 1 ≤ rest.length + 1 by omega⟩
    rw [decodeStr]
    split_ifs
    · exact .of_leaf positive (by omega) _ _
    · exact .of_leaf inside.1 inside.2 _ _

section Arrays

variable {inner : List UInt8 -> Option Run} {payload : List UInt8}
  (inner_sound : ∀ rest, rest.length < payload.length ->
    ∃ run, inner rest = some run ∧ Sound rest run) (strict : Bool)
include inner_sound

/-- The iterations left and what is announced behind the offset stay within what
is announced. -/
theorem elements_sound (rounds : Nat) (retVec : List UInt8) (positive : 0 < offset)
    (inside : offset ≤ payload.length)
    (counted : iterations + rounds + announced (payload.drop offset) ≤ announced payload) :
    ∃ run, elements inner strict payload rounds retVec offset iterations = some run ∧
      Sound payload run := by
  induction rounds generalizing retVec offset iterations with
  | zero => exact ⟨_, rfl, .of_used positive inside counted _ _⟩
  | succ rounds ih =>
    obtain ⟨element, isElement, sound⟩ := inner_sound (payload.drop offset) (by
      rw [List.length_drop]
      omega)
    simp only [elements, isElement, some_bind]
    cases decoded : element.decoded with
    | none =>
      have := sound.of_undecoded decoded
      exact ih retVec positive inside (by omega)
    | some result =>
      obtain ⟨subVec, subOffset, _⟩ := result
      have used := sound.of_decoded _ decoded
      simp only [List.length_drop, List.drop_drop] at used ⊢
      rw [if_neg (by omega)]
      by_cases ended : payload.length ≤ offset + subOffset
      · rw [if_pos ended]
        refine ⟨_, rfl, .of_used (by omega) (Nat.le_refl _) ?_ _ _⟩
        rw [List.drop_length, announced]
        omega
      · rw [if_neg ended]
        exact ih _ (by omega) (by omega) (by omega)

theorem decodeAsterisk_sound (isArray : payload.head? = some 42) :
    ∃ run, decodeAsterisk inner strict payload = some run ∧ Sound payload run := by
  rw [decodeAsterisk]
  split
  · exact ⟨_, rfl, .none payload⟩
  case h_2 number subOffset isNumber =>
    have inside := decodeInteger_inside isNumber
    rw [List.length_drop] at inside
    split_ifs
    · exact ⟨_, rfl, .of_leaf (by omega) (by omega) _ _⟩
    · refine elements_sound inner_sound strict _ _ (by omega) (by omega) ?_
      have header := headerCount_add_announced_le payload (show 0 < 1 + subOffset by omega)
      rw [headerCount, if_pos isArray, isNumber] at header
      simpa using header

end Arrays

theorem ofUInt8_injective : Function.Injective Char.ofUInt8 := by
  intro byte other same
  have words : byte.toUInt32 = other.toUInt32 := congrArg Char.val same
  have numbers := congrArg UInt32.toNat words
  rwa [UInt8.toNat_toUInt32, UInt8.toNat_toUInt32, UInt8.toNat_inj] at numbers

/-- The first byte, as the match on its character finds it. -/
theorem head?_of_ofUInt8 {payload : List UInt8} {byte : UInt8} (long : ¬ payload.length < 2)
    (isFirst : Char.ofUInt8 (payload.headD 0) = Char.ofUInt8 byte) :
    payload.head? = some byte := by
  obtain _ | ⟨first, rest⟩ := payload
  · exact absurd Nat.zero_lt_two long
  · exact congrArg some (ofUInt8_injective isFirst)

theorem decodeWithin_sound (strict : Bool) (enough : payload.length < depth) :
    ∃ run, decodeWithin strict depth payload = some run ∧ Sound payload run := by
  induction depth generalizing payload with
  | zero => exact absurd enough (Nat.not_lt_zero _)
  | succ depth ih =>
    rw [decodeWithin]
    split_ifs with short
    · exact ⟨_, rfl, .none payload⟩
    · split
      case h_1 isArray =>
        exact decodeAsterisk_sound (fun rest shorter => ih (by omega)) strict
          (@head?_of_ofUInt8 payload 42 short isArray)
      case h_5 =>
        cases isString : decodeDollor payload strict with
        | none => exact ⟨_, rfl, .none payload⟩
        | some result =>
          obtain ⟨used, inside⟩ := decodeDollor_inside isString
          exact ⟨_, rfl, .of_leaf used inside _ _⟩
      case h_6 => exact ⟨_, rfl, .none payload⟩
      all_goals
        rename_i isFirst
        exact ⟨_, rfl, decodeStr_sound short isFirst (by decide) (by decide) _⟩

/-- Bytes that begin no value. -/
def Undecodable (payload : List UInt8) : Prop :=
  payload.length < 2 ∨ payload.head? ∉ [42, 43, 58, 45, 36].map some

theorem decodeWithin_of_undecodable (strict : Bool) (depth : Nat)
    (undecodable : Undecodable payload) :
    decodeWithin strict (depth + 1) payload = some { decoded := none } := by
  rw [decodeWithin]
  split_ifs with short
  · rfl
  · have notType := undecodable.resolve_left short
    split
    case h_6 => rfl
    all_goals
      rename_i isFirst
      refine absurd ?_ notType
    · simp [@head?_of_ofUInt8 payload 42 short isFirst]
    · simp [@head?_of_ofUInt8 payload 43 short isFirst]
    · simp [@head?_of_ofUInt8 payload 58 short isFirst]
    · simp [@head?_of_ofUInt8 payload 45 short isFirst]
    · simp [@head?_of_ofUInt8 payload 36 short isFirst]

/-- At an offset where nothing decodes the loop makes its other iterations in
vain. -/
theorem elements_of_undecoded {inner : List UInt8 -> Option Run} {payload : List UInt8}
    (undecoded : inner (payload.drop offset) = some { decoded := none }) (strict : Bool)
    (rounds : Nat) (retVec : List UInt8) (iterations : Nat) :
    elements inner strict payload rounds retVec offset iterations =
      some ⟨some (retVec, offset, false), iterations + rounds⟩ := by
  induction rounds generalizing iterations with
  | zero => rfl
  | succ rounds ih =>
    simp only [elements, undecoded, some_bind]
    rw [ih]
    congr 2
    omega

/-- A bulk string with a header in it announces more than the payload has bytes
and has no iteration. -/
example : announced [36, 53, 13, 10, 42, 57, 57, 13, 10, 13, 10] = 99 ∧
    decode [36, 53, 13, 10, 42, 57, 57, 13, 10, 13, 10] true =
      some ⟨some ([42, 57, 57, 13, 10], 11, false), 0⟩ := by
  decide +kernel

end Metaflow.ProtocolLogs.Redis
