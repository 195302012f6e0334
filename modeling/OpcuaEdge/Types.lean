import OpcuaEdge.Lib.CNumber

/-!
# OpcuaEdge — the in-memory plant model (`edge_types.h`, `edge_limits.h`)

The fixed-size arrays with their counts are lists of the live elements. A pointer into one of
the model's arrays is the index it points to, `none` for a null pointer. Flags kept in a
`uint8_t` that only ever hold 0 or 1 are `Bool`. The enumerations have an extra value `unset`
for the zero that `memset` leaves in a record. The default values of all fields are those of a
zeroed record.
-/

namespace OpcuaEdge

open CStr

/-! ## Limits

The sizes of `edge_limits.h`. A length counts the terminating zero, so a text in a buffer of
`edgeMaxIdLen` bytes has at most 63. -/

/-- `EDGE_MAX_ID_LEN`: ids and types. -/
def edgeMaxIdLen : Nat := 64
/-- `EDGE_MAX_NAME_LEN`: names that people read. -/
def edgeMaxNameLen : Nat := 128
/-- `EDGE_MAX_LINE_LEN`: the buffer that `fgets` fills from a template. -/
def edgeMaxLineLen : Nat := 512
/-- `EDGE_MAX_ASSETS`, the capacity of `model->assets`. -/
def edgeMaxAssets : Nat := 1024
/-- `EDGE_MAX_NODES`, the capacity of `model->nodes`. -/
def edgeMaxNodes : Nat := 65536
/-- `EDGE_MAX_EVENTS`, the capacity of `model->events`. -/
def edgeMaxEvents : Nat := 4096

/-- `edge_invalid_index`, `UINT32_MAX`. -/
def edgeInvalidIndex : Nat := 4294967295

/-! ## Enumerations

The values of `edge_types.h`. A status is the answer of nearly every function of the program. -/

/-- `EDGE_STATUS_OK` and the three kinds of failure: a library that refused, a limit that was
exceeded, a template that says something invalid. -/
inductive EdgeStatus where
  | ok
  | error
  | limit
  | invalid
  deriving DecidableEq, Repr

/-- What a node holds; it selects the member of the value union. -/
inductive EdgeDataType where
  | unset
  | bool
  | int16
  | int32
  | uint32
  | double
  deriving DecidableEq, Repr

/-- On which side of its threshold an event is active. -/
inductive EdgeEventCondition where
  | unset
  | greaterThan
  | lessThan
  deriving DecidableEq, Repr

/-! ## Records

What a template describes: the plant is a tree of assets, a node is one value of an asset, and an
event watches one node. References are kept twice, as the text the template gives and as the index
the loader resolves it to; the pointers are filled by the wiring. -/

/-- The value union. Its members are kept side by side: the code reads only the member that the
node's `data_type` selects, and the data type is fixed before the first value is stored. -/
structure EdgeValue where
  b : BitVec 8 := 0
  i16 : BitVec 16 := 0
  i32 : BitVec 32 := 0
  u32 : BitVec 32 := 0
  d : Double := .fin 0
  deriving DecidableEq

/-- One value of the plant: where its registers are, how they scale, what it holds, and whether a
client has written it since the last tick. -/
structure EdgeNode where
  id : Bytes := []
  name : Bytes := []
  assetId : Bytes := []
  assetIndex : Nat := 0
  asset : Option Nat := none
  dataType : EdgeDataType := .unset
  writable : Bool := false
  modbusUnit : UInt16 := 0
  modbusRegister : UInt32 := 0
  scale : Double := .fin 0
  value : EdgeValue := {}
  pendingWrite : Bool := false
  deriving DecidableEq

/-- A piece of the plant, below its parent. The nodes of an asset are counted by the wiring, which
also notes the first one. -/
structure EdgeAsset where
  id : Bytes := []
  type : Bytes := []
  name : Bytes := []
  parentId : Bytes := []
  parentIndex : Nat := 0
  parent : Option Nat := none
  firstNodeIndex : Nat := 0
  nodeCount : Nat := 0
  deriving DecidableEq

/-- An alarm on one node. `active` is its latch: set on the rising edge, cleared when the condition
no longer holds. -/
structure EdgeEvent where
  id : Bytes := []
  assetId : Bytes := []
  sourceNodeId : Bytes := []
  assetIndex : Nat := 0
  sourceNodeIndex : Nat := 0
  asset : Option Nat := none
  sourceNode : Option Nat := none
  condition : EdgeEventCondition := .unset
  threshold : Double := .fin 0
  severity : UInt16 := 0
  active : Bool := false
  deriving DecidableEq

/-- The plant with everything in it. -/
structure EdgeModel where
  id : Bytes := []
  name : Bytes := []
  assets : List EdgeAsset := []
  nodes : List EdgeNode := []
  events : List EdgeEvent := []
  deriving DecidableEq

/-! ## Dereferencing the wired pointers

`none` stands for a null pointer and for one beyond the array. The wiring only stores indexes that
the loader has resolved, so in a wired model neither happens. -/

/-- `node->asset`. -/
def EdgeModel.assetOf (model : EdgeModel) (node : EdgeNode) : Option EdgeAsset :=
  node.asset.bind (model.assets[·]?)

/-- `event->asset`. -/
def EdgeModel.eventAssetOf (model : EdgeModel) (event : EdgeEvent) : Option EdgeAsset :=
  event.asset.bind (model.assets[·]?)

/-- `event->source_node`. -/
def EdgeModel.sourceOf (model : EdgeModel) (event : EdgeEvent) : Option EdgeNode :=
  event.sourceNode.bind (model.nodes[·]?)

/-! ## Conversions to and from `double` (`edge_value.h`) -/

/-- `edge_node_as_double`: the member that the data type selects, as a double. Every integer member
is exact in one. -/
def edgeNodeAsDouble (node : EdgeNode) : Double :=
  match node.dataType with
  | .bool => .fin node.value.b.toNat
  | .int16 => .fin node.value.i16.toInt
  | .int32 => .fin node.value.i32.toInt
  | .uint32 => .fin node.value.u32.toNat
  | .double => node.value.d
  | .unset => .fin 0

/-- A finite double is truncated toward zero into an integer member. Outside the member's range
the conversion is undefined in C; here the low bits are kept. -/
def edgeNodeSetFromDouble (node : EdgeNode) (d : Double) : EdgeNode :=
  match d with
  | .fin q =>
    match node.dataType with
    | .bool => { node with value.b := if q ≠ 0 then 1 else 0 }
    | .int16 => { node with value.i16 := BitVec.ofInt 16 (Double.trunc q) }
    | .int32 => { node with value.i32 := BitVec.ofInt 32 (Double.trunc q) }
    | .uint32 => { node with value.u32 := BitVec.ofInt 32 (Double.trunc q) }
    | .double => { node with value.d := d }
    | .unset => node
  | _ => if node.dataType = .double then { node with value.d := d } else { node with value := {} }

end OpcuaEdge
