import Metaflow.Library.AlignedBlock

/-!
# The filter of addresses

`filter.go`: addresses are compared as hexadecimal texts. Those of the two
families differ in length, but the comparison with the range of a CIDR does not
look at the family, so addresses of the other one can satisfy it.
-/

namespace Metaflow.Querier

open List Library

/-- The number of digits that `hex` writes for a family. -/
def digits (isIpv4 : Bool) : Nat :=
  if isIpv4 then 8 else 32

/-- An address as a number below the end of its family. -/
structure Address where
  isIpv4 : Bool
  number : Nat
  small : number < 16 ^ digits isIpv4

/-- The digits of a number, of a fixed width. -/
def hex : Nat -> Nat -> List Nat
  | 0, _ => []
  | width + 1, number => number / 16 ^ width :: hex width (number % 16 ^ width)

/-- The order of texts. -/
def textLe : List Nat -> List Nat -> Bool
  | [], _ => true
  | _ :: _, [] => false
  | digit :: rest, digit' :: rest' => digit < digit' ∨ digit = digit' ∧ textLe rest rest'

/-- An address of the list, or a CIDR with its number of bits. -/
inductive IpValue where
  | ip (address : Address)
  | cidr (address : Address) (bits : Nat)

/-- The first and the last address of `Masked().Range()` for an address and a
number of bits; `none` is an error of `ParseIPPrefix`. -/
structure Netaddr where
  range : Address -> Nat -> Option (Address × Address)

/-- The size of the block of a CIDR. -/
def blockSize (a : Address) (bits : Nat) : Nat :=
  2 ^ (4 * digits a.isIpv4 - bits)

/-- A prefix of at most the bits of its family is parsed, and its range is the
aligned block around its address. -/
structure Netaddr.Lawful (netaddr : Netaddr) : Prop where
  parsed (a : Address) (bits : Nat) :
    (netaddr.range a bits).isSome ↔ bits ≤ 4 * digits a.isIpv4
  family {a : Address} {bits : Nat} {range : Address × Address} :
    netaddr.range a bits = some range ->
      range.1.isIpv4 = a.isIpv4 ∧ range.2.isIpv4 = a.isIpv4
  first {a : Address} {bits : Nat} {range : Address × Address} :
    netaddr.range a bits = some range ->
      range.1.number = blockBase (blockSize a bits) a.number
  last {a : Address} {bits : Nat} {range : Address × Address} :
    netaddr.range a bits = some range ->
      range.2.number = blockBase (blockSize a bits) a.number + blockSize a bits - 1

/-- The operators `=`, `!=`, `IN` and `NOT IN`. -/
inductive IpOp where
  | equal
  | unequal
  | isIn
  | notIn

/-- Whether the filter is put behind a `not`. -/
def IpOp.negates : IpOp -> Bool
  | .equal | .isIn => false
  | .unequal | .notIn => true

/-- Whether the addresses are put behind an `in`. -/
def IpOp.takesList : IpOp -> Bool
  | .equal | .unequal => false
  | .isIn | .notIn => true

theorem length_hex (width number : Nat) : (hex width number).length = width := by
  induction width generalizing number with
  | zero => rfl
  | succ width ih => rw [hex, length_cons, ih]

/-- Texts of one length are in the order of their numbers. -/
theorem textLe_hex (small : number < 16 ^ width) (small' : other < 16 ^ width) :
    textLe (hex width number) (hex width other) ↔ number ≤ other := by
  induction width generalizing number other with
  | zero =>
    rw [Nat.lt_one_iff.mp small, Nat.lt_one_iff.mp small']
    simp [hex, textLe]
  | succ width ih =>
    have positive : 0 < 16 ^ width := Nat.pow_pos (by decide)
    rw [hex, hex, textLe, decide_eq_true_iff, ih (Nat.mod_lt _ positive) (Nat.mod_lt _ positive)]
    have parts := Nat.div_add_mod number (16 ^ width)
    have parts' := Nat.div_add_mod other (16 ^ width)
    constructor
    · rintro (less | ⟨same, rest⟩)
      · exact Nat.le_of_lt (Nat.lt_of_div_lt_div less)
      · rw [same] at parts
        omega
    · intro le
      rcases Nat.lt_or_eq_of_le (Nat.div_le_div_right le) with less | same
      · exact .inl less
      · rw [same] at parts
        exact .inr ⟨same, by omega⟩

theorem hex_inj (small : number < 16 ^ width) (small' : other < 16 ^ width) :
    hex width number = hex width other ↔ number = other := by
  refine ⟨fun same => Nat.le_antisymm ?_ ?_, congrArg _⟩
  · rw [← textLe_hex small small', same, textLe_hex small' small']
  · rw [← textLe_hex small' small, same, textLe_hex small' small']

/-- The block of an address stays in its family. -/
theorem blockBase_add_le (a : Address) (bits : Nat) :
    blockBase (blockSize a bits) a.number + blockSize a bits ≤ 16 ^ digits a.isIpv4 := by
  have divides : blockSize a bits ∣ 16 ^ digits a.isIpv4 := by
    rw [show 16 = 2 ^ 4 from rfl, ← Nat.pow_mul]
    exact Nat.pow_dvd_pow 2 (Nat.sub_le _ _)
  exact add_le_of_dvd dvd_blockBase divides (Nat.lt_of_le_of_lt blockBase_le a.small)

/-- Prefixes as aligned blocks. -/
def blockNetaddr : Netaddr where
  range a bits :=
    if bits ≤ 4 * digits a.isIpv4 then
      some
        (⟨a.isIpv4, blockBase (blockSize a bits) a.number,
          Nat.lt_of_le_of_lt blockBase_le a.small⟩,
        ⟨a.isIpv4, blockBase (blockSize a bits) a.number + blockSize a bits - 1, by
          have inside := blockBase_add_le a bits
          have positive : 0 < blockSize a bits := Nat.two_pow_pos _
          omega⟩)
    else none

theorem lawful_blockNetaddr : blockNetaddr.Lawful := by
  refine ⟨fun a bits => ?_, fun isRange => ?_, fun isRange => ?_, fun isRange => ?_⟩
  · dsimp only [blockNetaddr]
    split_ifs with fits <;> simp [fits]
  all_goals
    dsimp only [blockNetaddr] at isRange
    split_ifs at isRange
    cases isRange
    first | rfl | exact ⟨rfl, rfl⟩

namespace IpValue

/-- Whether a value contains a slash. -/
def isCidr : IpValue -> Bool
  | ip _ => false
  | cidr _ _ => true

/-- Whether a value is an address or has no more bits than its family. -/
def parses : IpValue -> Bool
  | ip _ => true
  | cidr a bits => bits ≤ 4 * digits a.isIpv4

/-- The filter of one value: `hex(..) = hex(ip)`, or for a CIDR
`hex(..) >= minIP AND hex(..) <= maxIP`. -/
def filter (netaddr : Netaddr) (row : Address) : IpValue -> Option Bool
  | ip a => some (hex (digits row.isIpv4) row.number = hex (digits a.isIpv4) a.number)
  | cidr a bits =>
    (netaddr.range a bits).map fun (minIP, maxIP) =>
      let text := hex (digits row.isIpv4) row.number
      textLe (hex (digits minIP.isIpv4) minIP.number) text ∧
        textLe text (hex (digits maxIP.isIpv4) maxIP.number)

/-- The addresses that a value stands for. -/
def names (row : Address) : IpValue -> Bool
  | ip a => row.isIpv4 = a.isIpv4 ∧ row.number = a.number
  | cidr a bits =>
    row.isIpv4 = a.isIpv4 ∧
      blockBase (blockSize a bits) row.number = blockBase (blockSize a bits) a.number

/-- A CIDR of the other family has the text of the address between those of its
ends. -/
def crosses (row : Address) : IpValue -> Bool
  | ip _ => false
  | cidr a bits =>
    let minIP := blockBase (blockSize a bits) a.number
    let text := hex (digits row.isIpv4) row.number
    row.isIpv4 ≠ a.isIpv4 ∧ textLe (hex (digits a.isIpv4) minIP) text ∧
      textLe text (hex (digits a.isIpv4) (minIP + blockSize a bits - 1))

/-- A plain address lets its own address through and no other one. -/
theorem filter_ip (netaddr : Netaddr) (row a : Address) :
    (ip a).filter netaddr row = some ((ip a).names row) := by
  obtain ⟨family, number, small⟩ := row
  obtain ⟨family', other, small'⟩ := a
  by_cases same : family = family'
  · subst same
    simp [filter, names, hex_inj small small']
  · have texts : hex (digits family) number ≠ hex (digits family') other := by
      intro texts
      have lengths := congrArg length texts
      rw [length_hex, length_hex] at lengths
      cases family <;> cases family' <;> simp_all [digits]
    simp [filter, names, same, texts]

/-- In its own family a CIDR lets the addresses of its block through. -/
theorem between_texts_iff (row a : Address) (bits : Nat) (same : row.isIpv4 = a.isIpv4) :
    (textLe (hex (digits a.isIpv4) (blockBase (blockSize a bits) a.number))
        (hex (digits row.isIpv4) row.number) ∧
      textLe (hex (digits row.isIpv4) row.number)
        (hex (digits a.isIpv4) (blockBase (blockSize a bits) a.number + blockSize a bits - 1))) ↔
      blockBase (blockSize a bits) row.number = blockBase (blockSize a bits) a.number := by
  have positive : 0 < blockSize a bits := Nat.two_pow_pos _
  have small := row.small
  have low := Nat.lt_of_le_of_lt (@blockBase_le (blockSize a bits) a.number) a.small
  have high : blockBase (blockSize a bits) a.number + blockSize a bits - 1 <
      16 ^ digits a.isIpv4 := by
    have inside := blockBase_add_le a bits
    omega
  rw [same] at small ⊢
  rw [textLe_hex low small, textLe_hex small high, blockBase_eq_iff positive dvd_blockBase]
  omega

/-- A value lets the addresses through that it names, and those of the other
family that cross it. -/
theorem filter_eq {netaddr : Netaddr} (lawful : netaddr.Lawful) (row : Address)
    (value : IpValue) :
    value.filter netaddr row =
      if value.parses then some (value.names row || value.crosses row) else none := by
  rcases value with a | ⟨a, bits⟩
  · rw [filter_ip, crosses, Bool.or_false]
    rfl
  · by_cases fits : bits ≤ 4 * digits a.isIpv4
    · obtain ⟨range, isRange⟩ := Option.isSome_iff_exists.mp ((lawful.parsed a bits).mpr fits)
      have families := lawful.family isRange
      simp only [filter, isRange, Option.map_some, parses, fits, decide_true, if_true, families,
        lawful.first isRange, lawful.last isRange, names, crosses]
      by_cases same : row.isIpv4 = a.isIpv4
      · have inBlock := between_texts_iff row a bits same
        rw [same] at inBlock
        simp only [same, inBlock, ne_eq, not_true, false_and, decide_false, Bool.or_false,
          true_and]
      · simp only [same, false_and, decide_false, Bool.false_or, ne_eq, not_false_eq_true,
          true_and]
    · have failed := Option.not_isSome_iff_eq_none.mp (mt (lawful.parsed a bits).mp fits)
      simp [filter, failed, parses, fits]

/-- The filters of a list, or the error of its first CIDR that is not parsed. -/
theorem mapM_filter {netaddr : Netaddr} (lawful : netaddr.Lawful) (row : Address)
    (values : List IpValue) :
    values.mapM (·.filter netaddr row) =
      if values.all (·.parses) then some (values.map fun value =>
        value.names row || value.crosses row) else none := by
  induction values with
  | nil => rfl
  | cons value rest ih =>
    rw [mapM_cons, filter_eq lawful, ih, all_cons]
    cases value.parses <;> cases rest.all (·.parses) <;> rfl

end IpValue

/-- The condition on a row; `none` if a CIDR is not parsed, no value is given,
or several addresses stand behind a `=`. -/
def ipFilter (netaddr : Netaddr) (op : IpOp) (values : List IpValue) (row : Address) :
    Option Bool := do
  let (cidrIPs, ips) := values.partition (·.isCidr)
  let cidrFilters ← cidrIPs.mapM (·.filter netaddr row)
  let ipsFilter ← ips.mapM (·.filter netaddr row)
  if values ≠ [] ∧ (op.takesList ∨ ips.length ≤ 1) then
    some (op.negates ^^ (cidrFilters.any id || ipsFilter.any id))
  else none

/-- A row satisfies the filter as asked exactly if every CIDR is parsed, the
filter is a condition and the list names the address if a CIDR of the other
family lets it through. -/
theorem ipFilter_names_iff (netaddr : Netaddr) (lawful : netaddr.Lawful) (op : IpOp)
    (values : List IpValue) (row : Address) :
    ipFilter netaddr op values row = some (op.negates ^^ values.any (·.names row)) ↔
      values.all (·.parses) ∧ values ≠ [] ∧
        (op.takesList ∨ (values.filter (!·.isCidr)).length ≤ 1) ∧
        (values.any (·.crosses row) -> values.any (·.names row)) := by
  have whole :
      ((values.filter (·.isCidr)).any (fun value => value.names row || value.crosses row) ||
      (values.filter (!·.isCidr)).any fun value => value.names row || value.crosses row) =
      (values.any (·.names row) || values.any (·.crosses row)) := by
    rw [← any_append, (filter_append_perm _ _).any_eq, Bool.eq_iff_iff]
    simp [and_or_left, exists_or]
  have parsed : ((values.filter (·.isCidr)).all (·.parses) &&
      (values.filter (!·.isCidr)).all (·.parses)) = values.all (·.parses) := by
    rw [← all_append, (filter_append_perm _ _).all_eq]
  simp only [ipFilter, partition_eq_filter_filter, Function.comp_def, IpValue.mapM_filter lawful]
  by_cases all : values.all (·.parses)
  · obtain ⟨cidrs, ips⟩ := Bool.and_eq_true_iff.mp (parsed.trans all)
    simp only [cidrs, ips, if_true, Option.bind_eq_bind, Option.bind_some, any_map,
      Function.comp_def, id, whole, all, true_and]
    split_ifs with valid
    · rw [Option.some_inj, Bool.xor_right_inj]
      simp only [ne_eq, valid.1, not_false_eq_true, valid.2, true_and]
      cases values.any (·.crosses row) <;> simp
    · exact iff_of_false (by simp) fun holds => valid ⟨holds.1, holds.2.1⟩
  · refine iff_of_false (fun holds => all ?_) fun holds => all holds.1
    rw [← parsed]
    cases cidrs : (values.filter (·.isCidr)).all (·.parses) <;>
      cases ips : (values.filter (!·.isCidr)).all (·.parses) <;> simp_all

/-- 10.0.0.1 satisfies the filter of a00::/8. -/
theorem ipFilter_other_family :
    ipFilter blockNetaddr .isIn [.cidr ⟨false, 0xa00 <<< 112, by decide⟩ 8]
        ⟨true, 0x0a000001, by decide⟩ = some true ∧
      IpValue.names ⟨true, 0x0a000001, by decide⟩ (.cidr ⟨false, 0xa00 <<< 112, by decide⟩ 8) =
        false := by
  decide +kernel

/-- 10.0.0.1 and 10.0.1.0/24 for an address of the CIDR. -/
theorem ipFilter_names_iff_two :
    ipFilter blockNetaddr .isIn
        [.ip ⟨true, 0x0a000001, by decide⟩, .cidr ⟨true, 0x0a000100, by decide⟩ 24]
        ⟨true, 0x0a000107, by decide⟩ = some true :=
  (ipFilter_names_iff blockNetaddr lawful_blockNetaddr .isIn _ _).mpr (by decide +kernel)

end Metaflow.Querier
