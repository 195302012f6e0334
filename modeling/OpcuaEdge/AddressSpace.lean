import OpcuaEdge.Identifiers
import OpcuaEdge.Lib.CLoop

/-!
# OpcuaEdge — the OPC UA address space (`edge_address_space.c`)

The value callbacks of a variable, and the load that mirrors the plant model as a tree of objects
and variables.

A variant is one of the scalar types the model knows, or `other`: an array or a scalar of any
other type. A data value without a value (`hasValue == false`) is `none`. open62541 is a parameter
of the load (`UaBuilder`): it hands out the namespace index and accepts or refuses each node. The
calls made are kept with their answers, in order.
-/

namespace OpcuaEdge

open CStr CLoop

/-! ## Value callbacks

A client reads and writes a variable through two callbacks, which open62541 calls with the node as
context. A write changes the node in memory and marks it; the device sees it in the next tick. -/

/-- A scalar of one of the five types that the program uses; `other` stands for every other type,
for arrays and for the empty variant. -/
inductive UaVariant where
  | boolean (v : Bool)
  | int16 (v : BitVec 16)
  | int32 (v : BitVec 32)
  | uint32 (v : BitVec 32)
  | double (v : Double)
  | other
  deriving DecidableEq

/-- The status codes that the callbacks return. -/
inductive UaStatusCode where
  | good
  | badNotWritable
  | badTypeMismatch
  deriving DecidableEq, Repr

/-- `set_variant_from_edge_value`. A boolean variant shows whether the byte is non-zero. -/
def setVariantFromEdgeValue (node : EdgeNode) : UaVariant :=
  match node.dataType with
  | .bool => .boolean (node.value.b ≠ 0)
  | .int16 => .int16 node.value.i16
  | .int32 => .int32 node.value.i32
  | .uint32 => .uint32 node.value.u32
  | _ => .double node.value.d

/-- `read_edge_node`: the variant handed to the client; the status is always good. -/
def readEdgeNode (node : EdgeNode) : UaVariant := setVariantFromEdgeValue node

/-- `write_edge_node`. -/
def writeEdgeNode (node : EdgeNode) (value : Option UaVariant) : UaStatusCode × EdgeNode :=
  match node.writable, value with
  | false, _ => (.badNotWritable, node)
  | true, none => (.badNotWritable, node)
  | true, some v =>
    match node.dataType, v with
    | .bool, .boolean x =>
      (.good, { node with value.b := if x then 1 else 0, pendingWrite := true })
    | .int16, .int16 x => (.good, { node with value.i16 := x, pendingWrite := true })
    | .int32, .int32 x => (.good, { node with value.i32 := x, pendingWrite := true })
    | .uint32, .uint32 x => (.good, { node with value.u32 := x, pendingWrite := true })
    | .double, .double x => (.good, { node with value.d := x, pendingWrite := true })
    | _, _ => (.badTypeMismatch, node)

/-! ## Nodes of the server

What is handed to open62541 for one node. Its calls are recorded with their results, so that a
property of the address space is one of the calls. -/

/-- The folder of the standard, and ids of the program's own namespace. -/
inductive UaNodeId where
  | objectsFolder
  | string (ns : UInt16) (id : Bytes)
  deriving DecidableEq

/-- The data types of variables. -/
inductive UaDataType where
  | boolean
  | int16
  | int32
  | uint32
  | double
  deriving DecidableEq, Repr

/-- The references that the tree is made of. -/
inductive UaReferenceType where
  | organizes
  | hasComponent
  deriving DecidableEq, Repr

/-- The types of the nodes. -/
inductive UaTypeDefinition where
  | baseObjectType
  | baseDataVariableType
  deriving DecidableEq, Repr

/-- What the load sets over the library's defaults. The context of a variable is the index of its
`EdgeNode`; reading is always allowed and always a callback. -/
inductive UaAttributes where
  | object (subscribeToEvents : Bool)
  | variable (dataType : UaDataType) (value : UaVariant) (writeAccess : Bool)
      (writeCallback : Bool) (context : Nat)
  deriving DecidableEq

/-- The arguments of `UA_Server_addObjectNode` and
`UA_Server_addCallbackValueSourceVariableNode`. -/
structure UaAddNode where
  nodeId : UaNodeId
  parent : UaNodeId
  reference : UaReferenceType
  browseName : UInt16 × Bytes
  typeDefinition : UaTypeDefinition
  displayName : Bytes
  attributes : UaAttributes
  deriving DecidableEq

/-- The two calls of open62541: registering the namespace, and adding a node, which may fail. -/
structure UaBuilder (ρ : Type) where
  addNamespace : Bytes → ρ → UInt16 × ρ
  addNode : UaAddNode → ρ → Bool × ρ

/-- The server being filled. -/
structure AddressSpace (ρ : Type) where
  ua : ρ
  calls : List (UaAddNode × Bool) := []

variable {ρ : Type}

/-- One call, recorded. A node that could not be added ends the load. -/
def AddressSpace.add (lib : UaBuilder ρ) (node : UaAddNode) (space : AddressSpace ρ) :
    EdgeStatus × AddressSpace ρ :=
  let r := lib.addNode node space.ua
  (if r.1 then .ok else .error, { ua := r.2, calls := space.calls ++ [(node, r.1)] })

/-- `ua_type_for_node`. A data type that is none of the five is shown as a double. -/
def uaTypeForNode (node : EdgeNode) : UaDataType :=
  match node.dataType with
  | .bool => .boolean
  | .int16 => .int16
  | .int32 => .int32
  | .uint32 => .uint32
  | _ => .double

/-! ## Building the tree

The plant below the folder of objects, the assets below the plant or their parent, and the
variables below their asset. A parent comes before its children, so its node exists. -/

/-- The URI of the program's namespace. -/
def edgeNamespaceUri : Bytes := lit "urn:twinedge:opcua-edge"

/-- The node of the plant. -/
def plantObject (ns : UInt16) (model : EdgeModel) (plantId : Bytes) : UaAddNode where
  nodeId := .string ns plantId
  parent := .objectsFolder
  reference := .organizes
  browseName := (ns, model.id)
  typeDefinition := .baseObjectType
  displayName := model.name
  attributes := .object true

/-- The node of an asset. -/
def assetObject (ns : UInt16) (asset : EdgeAsset) (assetId parentId : Bytes) : UaAddNode where
  nodeId := .string ns assetId
  parent := .string ns parentId
  reference := .organizes
  browseName := (ns, asset.id)
  typeDefinition := .baseObjectType
  displayName := asset.name
  attributes := .object true

/-- The node of a variable. Its context is the node of the model, here its index; a writable
variable is writable for users as well. -/
def variableNode (ns : UInt16) (i : Nat) (node : EdgeNode) (nodeId parentId : Bytes) :
    UaAddNode where
  nodeId := .string ns nodeId
  parent := .string ns parentId
  reference := .hasComponent
  browseName := (ns, node.id)
  typeDefinition := .baseDataVariableType
  displayName := node.name
  attributes := .variable (uaTypeForNode node) (setVariantFromEdgeValue node) node.writable
    node.writable i

/-- `add_plant_object`. -/
def addPlantObject (lib : UaBuilder ρ) (ns : UInt16) (model : EdgeModel)
    (space : AddressSpace ρ) : EdgeStatus × AddressSpace ρ :=
  let plantId := makePlantNodeid model
  if plantId.1 ≠ .ok then (.limit, space) else space.add lib (plantObject ns model plantId.2)

/-- The NodeId text of `asset->parent`, or of the plant when that is null; `none` stands for a
pointer that leads nowhere. -/
def makeParentNodeid (model : EdgeModel) (asset : EdgeAsset) : Option (EdgeStatus × Bytes) :=
  match asset.parent with
  | some p => (model.assets[p]?).map makeAssetNodeid
  | none => some (makePlantNodeid model)

/-- `none` as status stands for the crash on a bad pointer, here and below. -/
def addAssetObject (lib : UaBuilder ρ) (ns : UInt16) (model : EdgeModel) (asset : EdgeAsset)
    (space : AddressSpace ρ) : Option EdgeStatus × AddressSpace ρ :=
  let assetId := makeAssetNodeid asset
  if assetId.1 ≠ .ok then (some .limit, space)
  else
    match makeParentNodeid model asset with
    | none => (none, space)
    | some parentId =>
      if parentId.1 ≠ .ok then (some .limit, space)
      else
        let r := space.add lib (assetObject ns asset assetId.2 parentId.2)
        (some r.1, r.2)

/-- `add_variable_node`. Other than the parent of an asset, the asset of a node is used without a
test; `none` stands for the crash on a null pointer. -/
def addVariableNode (lib : UaBuilder ρ) (ns : UInt16) (model : EdgeModel) (i : Nat)
    (node : EdgeNode) (space : AddressSpace ρ) : Option EdgeStatus × AddressSpace ρ :=
  match makeVariableNodeid model node, model.assetOf node with
  | some nodeId, some asset =>
    let parentId := makeAssetNodeid asset
    if nodeId.1 ≠ .ok ∨ parentId.1 ≠ .ok then (some .limit, space)
    else
      let r := space.add lib (variableNode ns i node nodeId.2 parentId.2)
      (some r.1, r.2)
  | _, _ => (none, space)

/-- Any failure of an add leaves the load with `EDGE_STATUS_ERROR`. -/
def loadTurnOf (r : Option EdgeStatus × AddressSpace ρ) :
    AddressSpace ρ × Option (Option EdgeStatus) :=
  (r.2, match r.1 with
    | some .ok => none
    | some _ => some (some .error)
    | none => some none)

/-- `edge_address_space_load`: whatever failed, the answer is `EDGE_STATUS_ERROR`. -/
def edgeAddressSpaceLoad (lib : UaBuilder ρ) (model : EdgeModel) (ua : ρ) :
    Option EdgeStatus × AddressSpace ρ :=
  let ns := lib.addNamespace edgeNamespaceUri ua
  let plant := addPlantObject lib ns.1 model { ua := ns.2 }
  if plant.1 ≠ .ok then (some .error, plant.2)
  else
    let assets := visit
      (fun _ asset space => loadTurnOf (addAssetObject lib ns.1 model asset space))
      0 model.assets plant.2
    match assets.2 with
    | some status => (status, assets.1)
    | none =>
      let nodes := visit
        (fun i node space => loadTurnOf (addVariableNode lib ns.1 model i node space))
        0 model.nodes assets.1
      (nodes.2.getD (some .ok), nodes.1)

end OpcuaEdge
