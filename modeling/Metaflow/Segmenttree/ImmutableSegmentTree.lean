import Mathlib.Data.List.Sort

/-!
# Segment trees of one dimension

`cut.go`, `integer_range.go` and `immutable_segment_tree.go`: a tree over the
endpoints of the intervals; every interval puts its index on ranges that it
encloses, and a leaf that it only meets is split. The extreme endpoints stand
for the infinities. The queues of the source, which visit a node at most once,
are recursions.
-/

namespace Metaflow.Segmenttree

abbrev Endpoint := Int64

def positiveInfinity : Endpoint := Int64.maxValue

def negativeInfinity : Endpoint := Int64.minValue

structure Cut where
  endpoint : Endpoint
  closed : Bool
  deriving DecidableEq

namespace Cut

def compareTo (cut other : Cut) : Int :=
  if cut.endpoint > other.endpoint then 1
  else if cut.endpoint < other.endpoint then -1
  else if cut.closed ≠ other.closed then
    if cut.closed then 1 else -1
  else 0

def hasBound (cut : Cut) : Bool :=
  cut.endpoint ≠ positiveInfinity && cut.endpoint ≠ negativeInfinity

end Cut

structure IntegerRange where
  lower : Cut
  upper : Cut
  deriving DecidableEq

namespace IntegerRange

def lowerEndpoint (range : IntegerRange) : Endpoint := range.lower.endpoint

def upperEndpoint (range : IntegerRange) : Endpoint := range.upper.endpoint

def hasLowerBound (range : IntegerRange) : Bool := range.lower.hasBound

def hasUpperBound (range : IntegerRange) : Bool := range.upper.hasBound

def encloses (range other : IntegerRange) : Bool :=
  range.lower.compareTo other.lower ≤ 0 && range.upper.compareTo other.upper ≥ 0

def isEmpty (range : IntegerRange) : Bool :=
  range.lower.endpoint = range.upper.endpoint && (!range.lower.closed || !range.upper.closed)

def isConnected (range other : IntegerRange) : Bool :=
  range.lower.compareTo other.upper ≤ 0 && other.lower.compareTo range.upper ≤ 0

def intersection (range other : IntegerRange) : IntegerRange :=
  let lowerCmp := range.lower.compareTo other.lower
  let upperCmp := range.upper.compareTo other.upper
  if lowerCmp ≥ 0 ∧ upperCmp ≤ 0 then range
  else if lowerCmp ≤ 0 ∧ upperCmp ≥ 0 then other
  else
    { lower := if lowerCmp ≥ 0 then range.lower else other.lower
      upper := if upperCmp ≤ 0 then range.upper else other.upper }

end IntegerRange

def rangeAll : IntegerRange :=
  ⟨⟨negativeInfinity, false⟩, ⟨positiveInfinity, false⟩⟩

def upToRange (upper : Endpoint) (upperClosed : Bool) : IntegerRange :=
  ⟨⟨negativeInfinity, false⟩, ⟨upper, upperClosed⟩⟩

def downToRange (lower : Endpoint) (lowerClosed : Bool) : IntegerRange :=
  ⟨⟨lower, lowerClosed⟩, ⟨positiveInfinity, false⟩⟩

def ranged (lower : Endpoint) (lowerClosed : Bool) (upper : Endpoint)
    (upperClosed : Bool) : IntegerRange :=
  ⟨⟨lower, lowerClosed⟩, ⟨upper, upperClosed⟩⟩

/-- A set of integers, in ascending order. -/
abbrev BitArray := List Nat

namespace BitArray

def setBit (bits : BitArray) (index : Nat) : BitArray :=
  if index ∈ bits then bits else bits.orderedInsert (· ≤ ·) index

def or (bits other : BitArray) : BitArray :=
  other.foldl setBit bits

def and (bits other : BitArray) : BitArray :=
  bits.filter (· ∈ other)

end BitArray

/-- Which of the two parts around an endpoint has it. -/
inductive EndpointType where
  | bothOpen
  | leftClosed
  | rightClosed
  deriving DecidableEq

structure TypedEndpoint where
  endpoint : Endpoint
  endpointType : EndpointType
  deriving DecidableEq

/-- `endpointTypeMap[endpoint] = endpointType` -/
def setType (types : List TypedEndpoint) (endpoint : Endpoint)
    (endpointType : EndpointType) : List TypedEndpoint :=
  if types.any (·.endpoint = endpoint) then
    types.map fun typed =>
      if typed.endpoint = endpoint then ⟨endpoint, endpointType⟩ else typed
  else types ++ [⟨endpoint, endpointType⟩]

/-- The upper endpoint of an interval overrides the type that is known. -/
def addUpper (types : List TypedEndpoint) (interval : IntegerRange) : List TypedEndpoint :=
  if interval.hasUpperBound then
    setType types interval.upperEndpoint
      (if interval.upper.closed then .leftClosed else .rightClosed)
  else types

/-- The lower endpoint does not. -/
def addLower (types : List TypedEndpoint) (interval : IntegerRange) : List TypedEndpoint :=
  if interval.hasLowerBound then
    if types.any (·.endpoint = interval.lowerEndpoint) then types
    else setType types interval.lowerEndpoint
      (if interval.lower.closed then .rightClosed else .bothOpen)
  else types

def toEndpoints (intervals : List IntegerRange) : List TypedEndpoint :=
  (intervals.foldl (fun types interval =>
    addLower (addUpper types interval) interval) []).insertionSort (·.endpoint ≤ ·.endpoint)

inductive SubTree where
  | nil
  | node
      (interval : IntegerRange)
      (indexBitSet : BitArray)
      (left right : SubTree)
  deriving DecidableEq

namespace SubTree

def leaf (interval : IntegerRange) : SubTree :=
  node interval [] nil nil

end SubTree

section

variable (endpoints : List TypedEndpoint) (curInterval intersection : IntegerRange)

/-- `endpointIndexMap[endpoint]`, 0 for an endpoint that is not known -/
def endpointIndex (endpoint : Endpoint) : Nat :=
  if endpoints.any (·.endpoint = endpoint) then
    endpoints.findIdx (·.endpoint = endpoint)
  else 0

def lowerIndexOf (interval : IntegerRange) : Int :=
  if interval.hasLowerBound then
    endpointIndex endpoints interval.lowerEndpoint
  else -1

def upperIndexOf (interval : IntegerRange) : Int :=
  if interval.hasUpperBound then
    endpointIndex endpoints interval.upperEndpoint
  else endpoints.length

/-- The left part of a range, up to the endpoint in the middle. -/
def leftPart (lowerIndex : Int) (middle : TypedEndpoint) : Option IntegerRange :=
  let upperClosed := middle.endpointType = .leftClosed
  if lowerIndex = -1 then some (upToRange middle.endpoint upperClosed)
  else (endpoints[lowerIndex.toNat]?).map fun lower =>
    ranged lower.endpoint (lower.endpointType = .rightClosed) middle.endpoint upperClosed

/-- The right part of a range, from the endpoint in the middle on. -/
def rightPart (upperIndex : Int) (middle : TypedEndpoint) : Option IntegerRange :=
  let lowerClosed := middle.endpointType = .rightClosed
  if upperIndex = endpoints.length then
    some (downToRange middle.endpoint lowerClosed)
  else (endpoints[upperIndex.toNat]?).map fun upper =>
    ranged middle.endpoint lowerClosed upper.endpoint (upper.endpointType = .leftClosed)

/-- The tree below a range; `none` if the fuel is out or an index is out of
range. -/
def buildTree (endpoints : List TypedEndpoint) : Nat -> IntegerRange -> Option SubTree
  | 0, _ => none
  | fuel + 1, interval =>
    let lowerIndex := lowerIndexOf endpoints interval
    let upperIndex := upperIndexOf endpoints interval
    if upperIndex - lowerIndex ≤ 1 then some (.leaf interval)
    else do
      let middle <- endpoints[((lowerIndex + upperIndex).tdiv 2).toNat]?
      let leftInterval <- leftPart endpoints lowerIndex middle
      let rightInterval <- rightPart endpoints upperIndex middle
      let left <- buildTree endpoints fuel leftInterval
      let right <- buildTree endpoints fuel rightInterval
      return .node interval [] left right

/-- What a split leaf has behind the intersection. -/
def upperInterval : IntegerRange :=
  if curInterval.hasUpperBound then
    ⟨⟨intersection.upperEndpoint, false⟩, curInterval.upper⟩
  else downToRange intersection.upperEndpoint false

/-- What a split leaf has before the intersection. -/
def lowerInterval : IntegerRange :=
  if curInterval.hasLowerBound then
    ⟨curInterval.lower, ⟨intersection.lowerEndpoint, false⟩⟩
  else upToRange intersection.lowerEndpoint false

end

/-- Split a leaf that meets the interval. -/
def splitLeaf (curInterval : IntegerRange) (indexBitSet : BitArray) (intersection : IntegerRange)
    (index : Nat) : SubTree :=
  if curInterval.hasLowerBound ∧ curInterval.lowerEndpoint = intersection.lowerEndpoint then
    .node curInterval indexBitSet (.node intersection [index] .nil .nil)
      (.leaf (upperInterval curInterval intersection))
  else
    .node curInterval indexBitSet (.leaf (lowerInterval curInterval intersection))
      (.node intersection [index] .nil .nil)

def insertIndex (interval : IntegerRange) (index : Nat) : SubTree -> SubTree
  | .nil => .nil
  | .node curInterval indexBitSet left right =>
    if !interval.isConnected curInterval then
      .node curInterval indexBitSet left right
    else if interval.encloses curInterval then
      .node curInterval (indexBitSet.setBit index) left right
    else if ¬ (left = .nil ∧ right = .nil) then
      .node curInterval indexBitSet (insertIndex interval index left)
        (insertIndex interval index right)
    else if (interval.intersection curInterval).isEmpty then
      .node curInterval indexBitSet left right
    else
      splitLeaf curInterval indexBitSet (interval.intersection curInterval) index

/-- The tree of the intervals; the index of an interval is its position. -/
def init (intervals : List IntegerRange) : Option SubTree :=
  if intervals.length ≤ 0 then some .nil
  else
    let endpoints := toEndpoints intervals
    (buildTree endpoints (endpoints.length + 2) rangeAll).map fun root =>
      intervals.zipIdx.foldl (fun root (interval, index) =>
        insertIndex interval index root) root

/-- The range of a child meets the interval. -/
def SubTree.isConnectedTo (interval : IntegerRange) : SubTree -> Bool
  | .nil => false
  | .node child _ _ _ => interval.isConnected child

/-- The indices of the visited node and of what is visited below it. -/
def SubTree.collect (interval : IntegerRange) : SubTree -> BitArray
  | .nil => []
  | .node _ indexBitSet left right =>
    (indexBitSet.or (if left.isConnectedTo interval then left.collect interval else [])).or
      (if right.isConnectedTo interval then right.collect interval else [])

/-- The indices of the intervals that meet the given one; `none` for a tree
without a root. -/
def query : SubTree -> IntegerRange -> Option BitArray
  | .nil, _ => none
  | .node rootInterval indexBitSet left right, interval =>
    if !rootInterval.isConnected interval then some []
    else some ((SubTree.node rootInterval indexBitSet left right).collect interval)

end Metaflow.Segmenttree
