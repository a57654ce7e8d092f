import Metaflow.ProtocolLogs.Redis

/-!
# Values that Redis decoding reads back

Nested arrays of bulk strings are read back. Simple strings, integers and errors
are not: `decode_str` keeps the first byte and leaves the separator. Neither are
empty arrays, whose number is read as a text.
-/

namespace Metaflow.ProtocolLogs.Redis

open Library

/-- A line that is a number in decimal notation, and an `isize`. -/
structure IsNumber (line : List UInt8) (number : Nat) : Prop where
  nonempty : line ≠ []
  digits : ∀ byte ∈ line, (Char.ofUInt8 byte).isDigit = true
  value : Nat.ofDigitChars 10 (line.map Char.ofUInt8) 0 = number
  small : number < 9223372036854775808

/-- The first bytes of simple strings, integers and errors, with the length they
are cut at. -/
inductive IsLine : (first : UInt8) -> (limit : Nat) -> Prop
  | simpleString : IsLine 43 32
  | integer : IsLine 58 32
  | error : IsLine 45 256

/-- The bytes of values in a row, the contents of their leaves, and whether all
leaves are bulk strings and no array is empty. -/
inductive Encodes : (count : Nat) -> (bytes : List UInt8) -> (leaves : List (List UInt8)) ->
    (onlyBulk : Bool) -> Prop
  | nil : Encodes 0 [] [] true
  | bulk (length : IsNumber line content.length) (nonempty : content ≠ [])
      (rest : Encodes count bytes leaves onlyBulk) :
      Encodes (count + 1) ((36 :: line ++ 13 :: 10 :: content ++ [13, 10]) ++ bytes)
        ([content] ++ leaves) onlyBulk
  | line (isLine : IsLine first limit) (short : content.length < limit)
      (noReturn : ∀ byte ∈ content, byte ≠ 13) (rest : Encodes count bytes leaves onlyBulk) :
      Encodes (count + 1) ((first :: content ++ [13, 10]) ++ bytes) ([content] ++ leaves) false
  | array (length : IsNumber line size) (inner : Encodes size innerBytes innerLeaves innerBulk)
      (rest : Encodes count bytes leaves onlyBulk) :
      Encodes (count + 1) ((42 :: line ++ 13 :: 10 :: innerBytes) ++ bytes) (innerLeaves ++ leaves)
        (decide (0 < size) && innerBulk && onlyBulk)

/-- No values have no bytes. -/
theorem Encodes.eq_nil (encodes : Encodes 0 bytes leaves onlyBulk) :
    bytes = [] ∧ leaves = [] ∧ onlyBulk = true := by
  cases encodes
  exact ⟨rfl, rfl, rfl⟩

/-- Any values have some bytes. -/
theorem Encodes.count_eq_zero (encodes : Encodes count [] leaves onlyBulk) : count = 0 := by
  generalize isNil : ([] : List UInt8) = bytes at encodes
  cases encodes with
  | nil => rfl
  | bulk | line | array => cases isNil

/-- Values that are bulk strings and arrays that are not empty have leaves. -/
theorem Encodes.leaves_ne_nil (encodes : Encodes count bytes leaves onlyBulk)
    (present : 0 < count) (isBulk : onlyBulk = true) : leaves ≠ [] := by
  induction encodes with
  | nil => cases present
  | bulk | line => simp
  | array length inner rest innerIh ih =>
    simp only [Bool.and_eq_true, decide_eq_true_eq] at isBulk
    simp [innerIh isBulk.1.1 isBulk.1.2]

theorem digitsValue_of_digits (digits : ∀ digit ∈ chars, digit.isDigit = true) (value : Nat) :
    Datatype.digitsValue value chars = some (Nat.ofDigitChars 10 chars value) := by
  induction chars generalizing value with
  | nil => rfl
  | cons digit chars ih =>
    rw [List.forall_mem_cons] at digits
    rw [Datatype.digitsValue, if_pos digits.1, ih digits.2]
    rfl

theorem IsNumber.parseIsize (isNumber : IsNumber line number) :
    parseIsize (line.map Char.ofUInt8) = some (number : Int) := by
  obtain ⟨nonempty, digits, value, small⟩ := isNumber
  have digits : ∀ digit ∈ line.map Char.ofUInt8, digit.isDigit = true := by simpa using digits
  have isValue := digitsValue_of_digits digits 0
  rw [value] at isValue
  have nonempty : line.map Char.ofUInt8 ≠ [] := by simpa using nonempty
  generalize line.map Char.ofUInt8 = chars at *
  have isUnsigned : Datatype.unsigned chars = some number := by
    unfold Datatype.unsigned
    split
    · exact absurd rfl nonempty
    · simp at digits
    · simp at digits
    · exact isValue
  unfold Redis.parseIsize
  split
  · simp at digits
  · simp at digits
  · simp [Datatype.atoi, isUnsigned, small]

theorem findSeparator_append (noReturn : ∀ byte ∈ front, byte ≠ 13) (rest : List UInt8) :
    findSeparator (front ++ 13 :: 10 :: rest) = some front.length := by
  induction front with
  | nil => rfl
  | cons byte front ih =>
    rw [List.forall_mem_cons] at noReturn
    rw [List.cons_append, findSeparator, if_neg fun both => noReturn.1 both.1, ih noReturn.2]
    rfl

theorem IsNumber.decodeInteger (isNumber : IsNumber line number) (rest : List UInt8) :
    decodeInteger (line ++ 13 :: 10 :: rest) = some ((number : Int), line.length + 2) := by
  have noReturn : ∀ byte ∈ line, byte ≠ 13 := by
    rintro _ mem rfl
    exact absurd (isNumber.digits _ mem) (by decide)
  have long : ¬ line.length < 1 := by simpa using isNumber.nonempty
  rw [Redis.decodeInteger, findSeparator_append noReturn]
  simp only [some_bind]
  rw [if_neg long, List.take_left, isNumber.parseIsize]
  rfl

theorem join_intercalate (nonempty : ∀ leaf ∈ done, leaf ≠ []) (more : new ≠ []) :
    (if [(32 : UInt8)].intercalate done = [] then [32].intercalate new
      else [32].intercalate done ++ 32 :: [32].intercalate new) =
      [32].intercalate (done ++ new) := by
  induction done with
  | nil => rfl
  | cons leaf done ih =>
    rw [List.forall_mem_cons] at nonempty
    have appended : done ++ new ≠ [] := by simp [more]
    rw [List.cons_append, List.intercalate_cons_of_ne_nil appended, ← ih nonempty.2]
    cases done with
    | nil => simp [nonempty.1]
    | cons next done =>
      have isNext := nonempty.2 next (by simp)
      have notNil : [(32 : UInt8)].intercalate (next :: done) ≠ [] := by
        cases done <;> simp [List.intercalate_cons_of_ne_nil, isNext]
      rw [if_neg notNil, List.intercalate_cons_of_ne_nil (by simp), if_neg (by simp)]
      simp

/-- The text that has been read for some leaves: their contents joined by
spaces, or more than that. -/
inductive Joined (leaves : List (List UInt8)) (text : List UInt8) : (exactly : Bool) -> Prop
  | same (nonempty : ∀ leaf ∈ leaves, leaf ≠ []) (isText : text = [32].intercalate leaves) :
      Joined leaves text true
  | more (nonempty : ∀ leaf ∈ leaves, leaf ≠ [])
      (longer : ([(32 : UInt8)].intercalate leaves).length < text.length) : Joined leaves text false

theorem Joined.nonempty (joined : Joined leaves text exactly) : ∀ leaf ∈ leaves, leaf ≠ [] := by
  cases joined with
  | same nonempty => exact nonempty
  | more nonempty => exact nonempty

theorem Joined.length_le (joined : Joined leaves text exactly) :
    ([(32 : UInt8)].intercalate leaves).length ≤ text.length := by
  cases joined with
  | same _ isText => rw [isText]
  | more _ longer => exact Nat.le_of_lt longer

/-- Nothing has been read only for no leaves. -/
theorem Joined.eq_nil (joined : Joined leaves [] exactly) : leaves = [] ∧ exactly = true := by
  cases joined with
  | more _ longer => cases longer
  | same nonempty isText =>
    cases leaves with
    | nil => exact ⟨rfl, rfl⟩
    | cons leaf leaves =>
      have isLeaf := nonempty leaf (by simp)
      cases leaves <;> simp [List.intercalate_cons_of_ne_nil, isLeaf] at isText

theorem length_intercalate_append_le (done new : List (List UInt8)) :
    ([(32 : UInt8)].intercalate (done ++ new)).length ≤
      ([(32 : UInt8)].intercalate done).length + 1 + ([(32 : UInt8)].intercalate new).length := by
  induction done with
  | nil =>
    rw [List.nil_append]
    omega
  | cons leaf done ih =>
    by_cases more : done ++ new = []
    · obtain ⟨rfl, rfl⟩ := List.append_eq_nil_iff.mp more
      simp
    · rw [List.cons_append, List.intercalate_cons_of_ne_nil more]
      cases done with
      | nil => simp; omega
      | cons next done =>
        rw [List.intercalate_cons_of_ne_nil (by simp)]
        simp only [List.length_append, List.length_singleton] at ih ⊢
        omega

/-- A value behind those that were read. -/
theorem Joined.append (joined : Joined done retVec before) (joinedNew : Joined new subVec now)
    (leaves : now = true -> new ≠ []) :
    Joined (done ++ new) (if retVec = [] then subVec else retVec ++ 32 :: subVec)
      (before && now) := by
  have nonempty : ∀ leaf ∈ done ++ new, leaf ≠ [] := fun leaf isLeaf =>
    (List.mem_append.mp isLeaf).elim (joined.nonempty leaf) (joinedNew.nonempty leaf)
  by_cases nothing : retVec = []
  · subst nothing
    obtain ⟨rfl, rfl⟩ := joined.eq_nil
    rwa [if_pos rfl]
  · rw [if_neg nothing]
    have lengths := length_intercalate_append_le done new
    cases joined with
    | more _ longer =>
      refine .more nonempty ?_
      have := joinedNew.length_le
      simp only [List.length_append, List.length_cons]
      omega
    | same doneNonempty isText =>
      cases joinedNew with
      | more _ longer =>
        refine .more nonempty ?_
        rw [isText]
        simp only [List.length_append, List.length_cons]
        omega
      | same _ isNew =>
        refine .same nonempty ?_
        rw [← join_intercalate doneNonempty (leaves rfl), ← isText, if_neg nothing, isNew]

/-- What a call reads of some bytes with some leaves: all of them, or it is
stuck at a return. -/
inductive Reads (bytes : List UInt8) (leaves : List (List UInt8)) (text : List UInt8) :
    (used : Nat) -> (exactly : Bool) -> Prop
  | whole (joined : Joined leaves text exactly) : Reads bytes leaves text bytes.length exactly
  | stuck (positive : 0 < used) (isReturn : bytes[used]? = some 13) :
      Reads bytes leaves text used false

/-- What a call reads of one value with any bytes behind it. -/
def ReadsOne (inner : List UInt8 -> Option Run) (head : List UInt8)
    (leaves : List (List UInt8)) (onlyBulk : Bool) : Prop :=
  ∀ rest, ∃ text used isError iterations,
    inner (head ++ rest) = some ⟨some (text, used, isError), iterations⟩ ∧
      Reads head leaves text used onlyBulk

/-- What the loop over values in a row reads of them, behind others and before
any bytes. -/
def ReadsRow (inner : List UInt8 -> Option Run) (count : Nat) (bytes : List UInt8)
    (leaves : List (List UInt8)) (onlyBulk : Bool) : Prop :=
  ∀ front rest done retVec before iterations, front ≠ [] -> Joined done retVec before ->
    ∃ text used iterations', elements inner true (front ++ bytes ++ rest) count retVec front.length
        iterations = some ⟨some (text, used, false), iterations'⟩ ∧
      Reads (front ++ bytes) (done ++ leaves) text used (before && onlyBulk)

/-- At a return nothing decodes. -/
theorem decodeWithin_return {payload : List UInt8} (isReturn : payload[offset]? = some 13)
    (depth : Nat) :
    decodeWithin true (depth + 1) (payload.drop offset) = some { decoded := none } := by
  refine decodeWithin_of_undecodable true depth (.inr ?_)
  rw [List.head?_drop, isReturn]
  decide

/-- A round of the loop and the values behind it. -/
theorem ReadsRow.cons (isHead : ReadsOne (decodeWithin true (depth + 1)) head new isBulk)
    (long : head ≠ []) (hasLeaves : isBulk = true -> new ≠ [])
    (encodes : Encodes count bytes leaves onlyBulk)
    (tail : ReadsRow (decodeWithin true (depth + 1)) count bytes leaves onlyBulk) :
    ReadsRow (decodeWithin true (depth + 1)) (count + 1) (head ++ bytes) (new ++ leaves)
      (isBulk && onlyBulk) := by
  intro front rest done retVec before iterations notFirst joined
  obtain ⟨text, used, isError, i, decoded, reads⟩ := isHead (bytes ++ rest)
  have behind : (front ++ (head ++ bytes) ++ rest).drop front.length = head ++ (bytes ++ rest) := by
    simp
  have headLong := List.length_pos_of_ne_nil long
  simp only [elements, behind, decoded, some_bind]
  cases reads with
  | stuck positive isReturn =>
    have inside : used < head.length := (List.getElem?_eq_some_iff.mp isReturn).1
    have isReturn' : (front ++ (head ++ bytes))[front.length + used]? = some 13 := by
      rw [List.getElem?_append_right (by omega), Nat.add_sub_cancel_left,
        List.getElem?_append_left inside, isReturn]
    have stillReturn : (front ++ (head ++ bytes) ++ rest)[front.length + used]? = some 13 := by
      rw [List.getElem?_append_left (by simp only [List.length_append]; omega), isReturn']
    rw [if_neg (by omega), if_neg (by simp only [List.length_append]; omega),
      elements_of_undecoded (decodeWithin_return stillReturn depth)]
    refine ⟨_, _, _, rfl, ?_⟩
    rw [Bool.false_and, Bool.and_false]
    exact .stuck (by omega) isReturn'
  | whole joinedNew =>
    have joinedBoth := joined.append joinedNew hasLeaves
    rw [if_neg (by omega)]
    by_cases ended : (front ++ (head ++ bytes) ++ rest).length ≤ front.length + head.length
    · simp only [List.length_append] at ended
      obtain rfl : bytes = [] := List.eq_nil_of_length_eq_zero (by omega)
      obtain rfl : rest = [] := List.eq_nil_of_length_eq_zero (by omega)
      obtain rfl := encodes.count_eq_zero
      obtain ⟨-, rfl, rfl⟩ := encodes.eq_nil
      rw [if_pos (by simp)]
      refine ⟨_, _, _, rfl, ?_⟩
      simp only [List.append_nil, Bool.and_true]
      exact .whole joinedBoth
    · rw [if_neg ended]
      obtain ⟨text', used', i', ran, readsRow⟩ := tail (front ++ head) rest (done ++ new) _ _
        (iterations + i + 1) (by simp [notFirst]) joinedBoth
      refine ⟨text', used', i', ?_, ?_⟩
      · simpa [List.append_assoc] using ran
      · simpa [List.append_assoc, Bool.and_assoc] using readsRow

/-- A bulk string is read as a whole. -/
theorem readsOne_bulk (length : IsNumber line content.length) (nonempty : content ≠ [])
    (depth : Nat) :
    ReadsOne (decodeWithin true (depth + 1)) (36 :: line ++ 13 :: 10 :: content ++ [13, 10])
      [content] true := by
  intro rest
  have positive := List.length_pos_of_ne_nil nonempty
  have shape : (36 :: line ++ 13 :: 10 :: content ++ [13, 10]) ++ rest =
      36 :: (line ++ 13 :: 10 :: (content ++ 13 :: 10 :: rest)) := by
    simp
  have behind : (36 :: (line ++ 13 :: 10 :: (content ++ 13 :: 10 :: rest))).drop
      (1 + (line.length + 2)) = content ++ 13 :: 10 :: rest := by
    rw [Nat.add_comm, List.drop_succ_cons, ← List.drop_drop, List.drop_left]
    rfl
  have decoded : decodeDollor (36 :: (line ++ 13 :: 10 :: (content ++ 13 :: 10 :: rest))) true =
      some (content, (36 :: line ++ 13 :: 10 :: content ++ [13, 10]).length) := by
    have total : (36 :: line ++ 13 :: 10 :: content ++ [13, 10]).length =
        1 + (line.length + 2) + content.length + 2 := by
      simp only [List.length_append, List.length_cons, List.length_nil]
      omega
    rw [decodeDollor, List.drop_one, List.tail_cons, length.decodeInteger, total]
    simp only [some_bind]
    rw [if_neg (by omega), if_neg]
    · rw [behind, Int.toNat_natCast, List.take_left]
    · simp only [Int.toNat_natCast, Nat.add_assoc _ content.length 1, ← List.getElem?_drop, behind]
      simp
      omega
  refine ⟨content, _, false, 0, ?_, .whole (.same (by simpa) (by simp))⟩
  rw [shape, decodeWithin, if_neg (by simp only [List.length_cons, List.length_append]; omega)]
  change some (Run.mk ((decodeDollor _ true).map _) 0) = _
  rw [decoded]
  rfl

/-- A simple string, an integer or an error is read up to its return. -/
theorem readsOne_line (isLine : IsLine first limit) (short : content.length < limit)
    (noReturn : ∀ byte ∈ content, byte ≠ 13) (depth : Nat) :
    ReadsOne (decodeWithin true (depth + 1)) (first :: content ++ [13, 10]) [content] false := by
  intro rest
  have firstNot : first ≠ 13 := by cases isLine <;> decide
  have shape : (first :: content ++ [13, 10]) ++ rest = (first :: content) ++ 13 :: 10 :: rest := by
    simp
  have decoded : decodeStr ((first :: content) ++ 13 :: 10 :: rest) limit =
      (first :: content, content.length + 1) := by
    rw [decodeStr, findSeparator_append (by simpa [firstNot] using noReturn), Option.getD_some,
      List.length_cons, if_neg (by omega)]
    simp
  have stuck : Reads (first :: content ++ [13, 10]) [content] (first :: content)
      (content.length + 1) false := by
    refine .stuck (Nat.succ_pos _) ?_
    rw [List.getElem?_append_right (by simp)]
    simp
  have long : ¬ ((first :: content) ++ 13 :: 10 :: rest).length < 2 := by
    simp only [List.length_cons, List.length_append]
    omega
  rw [shape, decodeWithin, if_neg long]
  cases isLine with
  | simpleString =>
    refine ⟨_, _, false, 0, ?_, stuck⟩
    change some (Run.mk (some ((decodeStr _ 32).1, (decodeStr _ 32).2, false)) 0) = _
    rw [decoded]
  | integer =>
    refine ⟨_, _, false, 0, ?_, stuck⟩
    change some (Run.mk (some ((decodeStr _ 32).1, (decodeStr _ 32).2, false)) 0) = _
    rw [decoded]
  | error =>
    refine ⟨_, _, true, 0, ?_, stuck⟩
    change some (Run.mk (some ((decodeStr _ 256).1, (decodeStr _ 256).2, true)) 0) = _
    rw [decoded]

/-- An array is read as its values are; an empty one is read as its number. -/
theorem readsOne_array (length : IsNumber line size)
    (encodes : Encodes size innerBytes innerLeaves innerBulk)
    (inner : ReadsRow (decodeWithin true depth) size innerBytes innerLeaves innerBulk) :
    ReadsOne (decodeWithin true (depth + 1)) (42 :: line ++ 13 :: 10 :: innerBytes)
      innerLeaves (decide (0 < size) && innerBulk) := by
  intro rest
  have shape : (42 :: line ++ 13 :: 10 :: innerBytes) ++ rest =
      42 :: (line ++ 13 :: 10 :: (innerBytes ++ rest)) := by
    simp
  have asArray : decodeWithin true (depth + 1) (42 :: (line ++ 13 :: 10 :: (innerBytes ++ rest))) =
      decodeAsterisk (decodeWithin true depth) true
        (42 :: (line ++ 13 :: 10 :: (innerBytes ++ rest))) := by
    rw [decodeWithin, if_neg (by simp only [List.length_cons, List.length_append]; omega)]
    rfl
  rw [shape, asArray, decodeAsterisk, List.drop_one, List.tail_cons, length.decodeInteger]
  simp only
  by_cases positive : 0 < size
  · obtain ⟨text, used, i, ran, reads⟩ := inner (42 :: line ++ [13, 10]) rest [] [] true 0 (by simp)
      (.same (by simp) rfl)
    refine ⟨text, used, false, i, ?_, ?_⟩
    · rw [if_neg (by omega)]
      simpa [Nat.add_comm] using ran
    · simpa [positive] using reads
  · obtain rfl : size = 0 := by omega
    obtain ⟨rfl, rfl, -⟩ := encodes.eq_nil
    refine ⟨line, _, false, 0, ?_, .whole (.more (by simp) ?_)⟩
    · rw [if_pos (by simp)]
      simp
      omega
    · simpa using List.length_pos_of_ne_nil length.nonempty

/-- The loop over values in a row, by induction on their encoding. -/
theorem readsRow_encodes (encodes : Encodes count bytes leaves onlyBulk)
    (enough : bytes.length ≤ depth) :
    ReadsRow (decodeWithin true depth) count bytes leaves onlyBulk := by
  induction encodes generalizing depth with
  | nil =>
    intro front rest done retVec before iterations _ joined
    refine ⟨retVec, front.length, iterations, rfl, ?_⟩
    simp only [List.append_nil, Bool.and_true]
    exact .whole joined
  | bulk length nonempty rest ih =>
    obtain _ | depth := depth
    · simp at enough
    · simp only [List.length_append, List.length_cons] at enough
      exact .cons (readsOne_bulk length nonempty depth) (by simp) (by simp) rest (ih (by omega))
  | line isLine short noReturn rest ih =>
    obtain _ | depth := depth
    · simp at enough
    · simp only [List.length_append, List.length_cons] at enough
      exact .cons (readsOne_line isLine short noReturn depth) (by simp) (by simp) rest
        (ih (by omega))
  | array length inner rest innerIh ih =>
    obtain _ | depth := depth
    · simp at enough
    · simp only [List.length_append, List.length_cons] at enough
      refine .cons (readsOne_array length inner (innerIh (by omega))) (by simp) ?_ rest
        (ih (by omega))
      simp only [Bool.and_eq_true, decide_eq_true_eq]
      exact fun isBulk => inner.leaves_ne_nil isBulk.1 isBulk.2

/-- A value is read to its end, with its contents joined by spaces, exactly if
its leaves are bulk strings and no array in it is empty. -/
theorem decode_encodes_iff (encodes : Encodes 1 bytes leaves onlyBulk) :
    ∃ run text used isError, decode bytes true = some run ∧
      run.decoded = some (text, used, isError) ∧
      (used = bytes.length ∧ text = [32].intercalate leaves ↔ onlyBulk = true) := by
  have reads : ReadsOne (decodeWithin true (bytes.length + 1)) bytes leaves onlyBulk := by
    cases encodes with
    | bulk length nonempty rest =>
      cases rest
      simp only [List.append_nil]
      exact readsOne_bulk length nonempty _
    | line isLine short noReturn rest =>
      cases rest
      simp only [List.append_nil]
      exact readsOne_line isLine short noReturn _
    | array length inner rest =>
      cases rest
      simp only [List.append_nil, Bool.and_true]
      refine readsOne_array length inner (readsRow_encodes inner ?_)
      simp only [List.length_append, List.length_cons]
      omega
  obtain ⟨text, used, isError, iterations, decoded, outcome⟩ := reads []
  rw [List.append_nil] at decoded
  refine ⟨_, text, used, isError, decoded, rfl, ?_⟩
  cases outcome with
  | stuck positive isReturn =>
    have inside : used < bytes.length := (List.getElem?_eq_some_iff.mp isReturn).1
    exact iff_of_false (fun whole => by omega) (by simp)
  | whole joined =>
    cases joined with
    | same _ isText => exact iff_of_true ⟨rfl, isText⟩ rfl
    | more _ longer =>
      refine iff_of_false ?_ (by simp)
      rintro ⟨-, rfl⟩
      exact absurd longer (Nat.lt_irrefl _)

/-- An array of the bulk strings `a` and `b`. -/
theorem decode_encodes_iff_two :
    ∃ run isError, decode [42, 50, 13, 10, 36, 49, 13, 10, 97, 13, 10, 36, 49, 13, 10, 98, 13, 10]
        true = some run ∧
      run.decoded = some ([97, 32, 98], 18, isError) := by
  have one : IsNumber [49] 1 := ⟨by decide, List.forall_mem_singleton.mpr rfl, rfl, by decide⟩
  have two : IsNumber [50] 2 := ⟨by decide, List.forall_mem_singleton.mpr rfl, rfl, by decide⟩
  have isA : IsNumber [49] [(97 : UInt8)].length := one
  have isB : IsNumber [49] [(98 : UInt8)].length := one
  obtain ⟨run, text, used, isError, isRun, decoded, readsBack⟩ := decode_encodes_iff
    (.array two (.bulk isA (by decide) (.bulk isB (by decide) .nil)) .nil)
  obtain ⟨rfl, rfl⟩ := readsBack.mpr rfl
  exact ⟨run, isError, isRun, decoded⟩

/-- The simple string `OK`: the first byte stays and the separator is left. -/
theorem decode_simple_string :
    decode [43, 79, 75, 13, 10] true = some ⟨some ([43, 79, 75], 3, false), 0⟩ := by
  decide +kernel

end Metaflow.ProtocolLogs.Redis
