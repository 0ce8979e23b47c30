import IGate.Config.Basic
import IGate.Toml.Value

/-! A configuration read from a document: which keys it must have, which kinds of values they take,
and what holds for those that are left out. -/

namespace IGate

inductive ShapeError where
  | missingField (name : String)
  | invalidType (found wanted : String)
  | invalidValue (found wanted : String)
  | invalidLength (length : Nat) (wanted : String)
  deriving DecidableEq

def ShapeError.message : ShapeError → String
  | missingField name => "missing field `" ++ name ++ "`"
  | invalidType found wanted => "invalid type: " ++ found ++ ", expected " ++ wanted
  | invalidValue found wanted => "invalid value: " ++ found ++ ", expected " ++ wanted
  | invalidLength length wanted =>
    "invalid length " ++ toString length ++ ", expected " ++ wanted

namespace Shape

open Toml (Located)

/-- An error knows the part of the document that it is about, if that has a part of its own. -/
abbrev Result (α : Type) := Except (Located ShapeError) α

abbrev Read (α : Type) := Located Toml.Value → Result α

def within {α : Type} (span : Option Toml.Span) (r : Result α) : Result α :=
  r.mapError fun e => { e with span := e.span.or span }

def mismatch {α : Type} (v : Located Toml.Value) (wanted : String) : Result α :=
  .error ⟨.invalidType v.value.describe wanted, v.span⟩

def text : Read String := fun v =>
  match v.value with
  | .string s => .ok s
  | _ => mismatch v "a string"

def path : Read String := fun v =>
  match v.value with
  | .string s => .ok s
  | _ => mismatch v "path string"

def flag : Read Bool := fun v =>
  match v.value with
  | .boolean b => .ok b
  | _ => mismatch v "a boolean"

def port : Read UInt16 := fun v =>
  match v.value with
  | .integer i =>
    if 0 ≤ i ∧ i < UInt16.size then .ok (UInt16.ofNat i.toNat)
    else .error ⟨.invalidValue v.value.describe "u16", v.span⟩
  | _ => mismatch v "u16"

/-- The fields of a section: by name, or in order. -/
inductive Fields where
  | named (entries : Toml.Entries)
  | listed (items : List (Located Toml.Value))

/-- A section is a table, or a list of its fields. A date counts as a table without any. -/
def fields (name : String) : Read Fields := fun v =>
  match v.value with
  | .table _ entries => .ok (.named entries)
  | .datetime => .ok (.named [])
  | .array items | .tables items => .ok (.listed items)
  | _ => mismatch v ("struct " ++ name)

structure Field (α : Type) where
  place : Nat
  name : String
  read : Read α

namespace Fields

def find? (fs : Fields) {α : Type} (f : Field α) : Option (Located Toml.Value) :=
  match fs with
  | .named entries => entries.find? f.name
  | .listed items => items[f.place]?

def getD (fs : Fields) {α : Type} (f : Field α) (default : α) : Result α :=
  match fs.find? f with
  | some v => f.read v
  | none => .ok default

def get? (fs : Fields) {α : Type} (f : Field α) : Result (Option α) :=
  match fs.find? f with
  | some v => some <$> f.read v
  | none => .ok none

def get (fs : Fields) (wanted : String) (count : Nat) {α : Type} (f : Field α) : Result α :=
  match fs.find? f, fs with
  | some v, _ => f.read v
  | none, .named _ => .error ⟨.missingField f.name, none⟩
  | none, .listed _ =>
    let wanted := "struct " ++ wanted ++ " with " ++ toString count ++ " elements"
    .error ⟨.invalidLength f.place wanted, none⟩

/-- Reads the named fields in the order in which they stand, before any is missed. -/
def check (fs : Fields) (read : String → Read Unit) : Result Unit :=
  match fs with
  | .named entries => entries.forM fun e => within e.1.span (read e.1.value e.2)
  | .listed _ => .ok ()

end Fields

def Field.unit {α : Type} (f : Field α) : String × Read Unit :=
  (f.name, fun v => (f.read v).map fun _ => ())

def among (fs : List (String × Read Unit)) (name : String) : Read Unit :=
  (fs.lookup name).getD fun _ => .ok ()

/-! Sections -/

def callsign : Field String := ⟨0, "callsign", text⟩
def debug : Field Bool := ⟨1, "debug", flag⟩

def station : Read StationConfig := fun v => within v.span do
  let fs ← fields "GeneralConfig" v
  fs.check (among [callsign.unit, debug.unit])
  return ⟨← fs.get "GeneralConfig" 2 callsign, ← fs.getD debug false⟩

def level : Field String := ⟨0, "level", text⟩
def directory : Field String := ⟨1, "file_path", path⟩
def fileRoot : Field String := ⟨2, "file_root", text⟩
def rotate : Field Bool := ⟨3, "rotate", flag⟩

def log : Read LogConfig := fun v => within v.span do
  let fs ← fields "LogConfig" v
  fs.check (among [level.unit, directory.unit, fileRoot.unit, rotate.unit])
  return ⟨← fs.getD level GatewayConfig.defaultLevel, ← fs.get? directory,
    ← fs.getD fileRoot GatewayConfig.defaultFileRoot, ← fs.getD rotate false⟩

def serverName : Field String := ⟨0, "server", text⟩
def serverPort : Field UInt16 := ⟨1, "port", port⟩
def password : Field String := ⟨2, "password", text⟩
def clientName : Field String := ⟨3, "client_name", text⟩
def filter : Field String := ⟨4, "filter", text⟩

def server : Read ServerConfig := fun v => within v.span do
  let fs ← fields "AprsIsSection" v
  fs.check (among [serverName.unit, serverPort.unit, password.unit, clientName.unit, filter.unit])
  return ⟨← fs.get "AprsIsSection" 5 serverName, ← fs.getD serverPort defaultServerPort,
    ← fs.get "AprsIsSection" 5 password, ← fs.getD clientName defaultClientName,
    ← fs.get? filter⟩

def address : Field String := ⟨0, "address", text⟩
def localPort : Field UInt16 := ⟨1, "port", port⟩
def forwardAddress : Field String := ⟨2, "forward_address", text⟩

def localSide : Read LocalConfig := fun v => within v.span do
  let fs ← fields "NetworkConfig" v
  fs.check (among [address.unit, localPort.unit, forwardAddress.unit])
  return ⟨← fs.getD address GatewayConfig.defaultBindAddress,
    ← fs.get "NetworkConfig" 3 localPort, ← fs.get? forwardAddress⟩

def stationField : Field StationConfig := ⟨0, "general", station⟩
def logField : Field LogConfig := ⟨1, "log", log⟩
def serverField : Field ServerConfig := ⟨2, "aprs_is", server⟩
def localField : Field LocalConfig := ⟨3, "network", localSide⟩

def gateway (root : Located Toml.Entries) : Result GatewayConfig := within root.span do
  let fs := Fields.named root.value
  fs.check (among [stationField.unit, logField.unit, serverField.unit, localField.unit])
  return ⟨← fs.get "GatewayConfig" 4 stationField, ← fs.getD logField GatewayConfig.defaultLog,
    ← fs.get "GatewayConfig" 4 serverField, ← fs.get "GatewayConfig" 4 localField⟩

end Shape

end IGate
