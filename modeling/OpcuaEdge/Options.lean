import OpcuaEdge.Types

/-!
# OpcuaEdge — the options of the process (`main.c`)

What `main` takes from its environment and its arguments before it does anything else.
-/

namespace OpcuaEdge

open CStr

/-- The values that `main` starts from. -/
structure Options where
  configPath : Bytes := lit "templates/desalination_plant.edge"
  dbPath : Bytes := lit "opcua-edge.db"
  modbusHost : Bytes := lit "127.0.0.1"
  modbusPort : UInt16 := 1502
  opcuaPort : UInt16 := 4840
  deriving DecidableEq

/-- The text of a variable that is set and not empty. -/
def setText (text : Option Bytes) : Option Bytes := text.filter (· ≠ [])

/-- A port read from a variable. A number below `least` or above 65535 is ignored. -/
def portOption (least : Int) (default : UInt16) (text : Option Bytes) : UInt16 :=
  match setText text with
  | none => default
  | some text =>
    let parsed := strtol text
    if least ≤ parsed ∧ parsed ≤ 65535 then parsed.toNat.toUInt16 else default

/-- The option for the Modbus port. -/
def modbusPortOption (text : Option Bytes) : UInt16 := portOption 0 1502 text

/-- Zero is no port to listen on. -/
def opcuaPortOption (text : Option Bytes) : UInt16 := portOption 1 4840 text

/-- The options of a process with the environment `getenv` and the arguments `argv`. -/
def readOptions (getenv : Bytes → Option Bytes) (argv : List Bytes) : Options :=
  let defaults : Options := {}
  { configPath :=
      -- an argument wins over the variable, even an empty one
      argv[1]?.getD ((setText (getenv (lit "EDGE_CONFIG_PATH"))).getD defaults.configPath)
    dbPath := (setText (getenv (lit "EDGE_DB_PATH"))).getD defaults.dbPath
    -- an empty host is taken: it disables Modbus
    modbusHost := (getenv (lit "EDGE_MODBUS_HOST")).getD defaults.modbusHost
    modbusPort := modbusPortOption (getenv (lit "EDGE_MODBUS_PORT"))
    opcuaPort := opcuaPortOption (getenv (lit "EDGE_OPCUA_PORT")) }

end OpcuaEdge
