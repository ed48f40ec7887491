import Teitunnel.Lib.Json
import Teitunnel.Lib.SortedMap
import Teitunnel.Lib.Text

/-!
# Schemas from values

A JSON Schema inferred from observed JSON values and merged across samples: a property is required
when every object seen had it, a type is a list when the samples disagree, and a string's format is
kept only when every string had it.
-/

namespace Teitunnel.OpenApi

open Text

/-- How deep objects and arrays are followed. -/
def MAX_DEPTH : ℕ := 12

/-- Properties kept per object. -/
def MAX_PROPERTIES : ℕ := 200

inductive Kind where
  | null
  | boolean
  | integer
  | number
  | string
  | array
  | object
  deriving DecidableEq, Repr

namespace Kind

instance : LinearOrder Kind :=
  LinearOrder.lift' Kind.ctorIdx fun a b h => by cases a <;> cases b <;> first | rfl | cases h

def name : Kind → String
  | null => "null"
  | boolean => "boolean"
  | integer => "integer"
  | number => "number"
  | string => "string"
  | array => "array"
  | object => "object"

/-- The kind of a value. -/
def of : Json → Kind
  | .null => null
  | .bool _ => boolean
  | .num _ => integer
  | .float _ => number
  | .str _ => string
  | .arr _ => array
  | .obj _ => object

end Kind

def isAsciiHexdigit (c : Char) : Bool :=
  ('0' ≤ c && c ≤ '9') || ('a' ≤ c && c ≤ 'f') || ('A' ≤ c && c ≤ 'F')

/-- `8-4-4-4-12` hexadecimal. -/
def isUuid (value : String) : Bool :=
  let parts := split '-' value
  parts.length == 5 && (parts.zip [8, 4, 4, 4, 12]).all fun (part, len) =>
    part.utf8ByteSize == len && part.toList.all isAsciiHexdigit

/-- A string format recognised in values. -/
def stringFormat (value : String) : Option String :=
  let bytes := utf8 value
  let digits (start stop : ℕ) : Bool :=
    stop ≤ bytes.length && ((bytes.take stop).drop start).all fun b => 48 ≤ b && b ≤ 57
  let isDate := 10 ≤ bytes.length && digits 0 4 && bytes[4]? == some 45 && digits 5 7 &&
    bytes[7]? == some 45 && digits 8 10
  let isEmail := match splitOnce '@' value with
    | some (user, domain) => user ≠ "" && domain.toList.contains '.' &&
        !value.toList.any isWhitespace && domain.toList.head? != some '.' &&
        domain.toList.getLast? != some '.'
    | none => false
  if isDate && bytes.length == 10 then some "date"
  else if isDate && (bytes[10]? == some 84 || bytes[10]? == some 116 || bytes[10]? == some 32) &&
      digits 11 13 && bytes[13]? == some 58 then some "date-time"
  else if isUuid value then some "uuid"
  else if isEmail then some "email"
  else if ("https://".toList.isPrefixOf value.toList || "http://".toList.isPrefixOf value.toList) &&
      !value.toList.any isWhitespace then some "uri"
  else none

/-- The format of a string without one comes first. -/
instance formatOrder : LinearOrder (Option String) := inferInstanceAs (LinearOrder (WithBot String))

/-- A schema being learned from samples. -/
structure Learned where
  kinds : SortedSet Kind := .empty
  /-- Formats of the strings seen (`none` for a string without one). -/
  formats : SortedSet (Option String) := .empty
  /-- Objects seen. -/
  objects : ℕ := 0
  /-- Per property how often it appeared and its schema, in the order of the names. -/
  properties : List (String × ℕ × Learned) := []
  /-- The arrays' items. -/
  items : Option Learned := none
  /-- Anything below the depth limit. -/
  isOpaque : Bool := false

namespace Learned

instance : Inhabited Learned := ⟨{}⟩

/-- The property `name`. -/
def property? (learned : Learned) (name : String) : Option (ℕ × Learned) :=
  learned.properties.lookup name

mutual

def addAt (value : Json) (depth : ℕ) (learned : Learned) : Learned :=
  if MAX_DEPTH ≤ depth then { learned with isOpaque := true }
  else match value with
    | .null => { learned with kinds := learned.kinds.insert .null }
    | .bool _ => { learned with kinds := learned.kinds.insert .boolean }
    | .num _ => { learned with kinds := learned.kinds.insert .integer }
    | .float _ => { learned with kinds := learned.kinds.insert .number }
    | .str s => { learned with
        kinds := learned.kinds.insert .string
        formats := learned.formats.insert (stringFormat s) }
    | .arr items => { learned with
        kinds := learned.kinds.insert .array
        items := some (addItems items (depth + 1) (learned.items.getD {})) }
    | .obj fields => addFields fields (depth + 1)
        { learned with kinds := learned.kinds.insert .object, objects := learned.objects + 1 }
  termination_by structural value

def addItems (items : List Json) (depth : ℕ) (learned : Learned) : Learned :=
  match items with
  | [] => learned
  | item :: rest => addItems rest depth (addAt item depth learned)
  termination_by structural items

def addFields (fields : List (String × Json)) (depth : ℕ) (learned : Learned) : Learned :=
  match fields with
  | [] => learned
  | field :: rest => addFields rest depth (addField field depth learned)
  termination_by structural fields

/-- A new property is left out when the object has as many as are kept. -/
def addField (field : String × Json) (depth : ℕ) (learned : Learned) : Learned :=
  match field with
  | (key, value) =>
      if (learned.property? key).isNone && MAX_PROPERTIES ≤ learned.properties.length then learned
      else { learned with
        properties := SortedMap.entry key (0, {})
          (fun entry => (entry.1 + 1, addAt value depth entry.2)) learned.properties }
  termination_by structural field

end

/-- Learns from one more sample. -/
def add (learned : Learned) (value : Json) : Learned := addAt value 0 learned

/-- Whether nothing was learned. -/
def isEmpty (learned : Learned) : Bool := learned.kinds.isEmpty && !learned.isOpaque

/-- The types of a schema: every integer is a number. -/
def types (kinds : SortedSet Kind) : SortedSet Kind :=
  if .number ∈ kinds then kinds.erase .integer else kinds

/-- One type, or the list of them. -/
def typeField (kinds : SortedSet Kind) : Json :=
  match kinds.toList with
  | [kind] => .str kind.name
  | kinds => .arr (kinds.map fun kind => .str kind.name)

/-- The format all strings have. -/
def formatField (formats : SortedSet (Option String)) : List (String × Json) :=
  match formats.toList with
  | [some format] => [("format", .str format)]
  | _ => []

/-- The names of the properties that every object had. -/
def requiredNames (learned : Learned) : List String :=
  (learned.properties.filter fun property => property.2.1 = learned.objects).map Prod.fst

def requiredField (learned : Learned) : List (String × Json) :=
  match learned.requiredNames with
  | [] => []
  | names => [("required", .arr (names.map .str))]

mutual

/-- The schema. -/
def schema (learned : Learned) : Json :=
  match learned with
  | ⟨kinds, formats, objects, properties, items, isOpaque⟩ =>
      if isOpaque || kinds.isEmpty then .obj []
      else
        let types := types kinds
        .obj (("type", typeField types) ::
          ((if .string ∈ types then formatField formats else []) ++
          (if .object ∈ types then
            ("properties", .obj (schemaProperties properties)) ::
              requiredField ⟨kinds, formats, objects, properties, items, isOpaque⟩
          else []) ++
          (if .array ∈ types then [("items", schemaItems items)] else [])))
  termination_by structural learned

def schemaProperties (properties : List (String × ℕ × Learned)) : List (String × Json) :=
  match properties with
  | [] => []
  | property :: rest => schemaProperty property :: schemaProperties rest
  termination_by structural properties

def schemaProperty (property : String × ℕ × Learned) : String × Json :=
  match property with
  | (name, entry) => (name, schemaEntry entry)
  termination_by structural property

def schemaEntry (entry : ℕ × Learned) : Json :=
  match entry with
  | (_, learned) => learned.schema
  termination_by structural entry

def schemaItems (items : Option Learned) : Json :=
  match items with
  | none => .obj []
  | some learned => if learned.isEmpty then .obj [] else learned.schema
  termination_by structural items

end

end Learned

/-- The types a schema names (`none` for none at all). -/
def typesOf (schema : Json) : Option (List String) :=
  match schema.get? "type" with
  | none => none
  | some (.str t) => some [t]
  | some (.arr ts) => some (ts.filterMap Json.asStr)
  | some _ => some []

/-- The names an object's schema requires. -/
def requiredOf (schema : Json) : List String :=
  match schema.get? "required" with
  | some (.arr names) => names.filterMap Json.asStr
  | _ => []

/-- The properties an object's schema has. -/
def propertiesOf (schema : Json) : List (String × Json) :=
  match schema.get? "properties" with
  | some (.obj properties) => properties
  | _ => []

mutual

/-- Whether `value` conforms to `schema`, of which a learned schema is all there is to know. -/
def conforms (value : Json) (schema : Json) : Bool :=
  match schema with
  | .obj _ =>
      match typesOf schema with
      | none => true
      | some types => match value with
        | .null => types.contains "null"
        | .bool _ => types.contains "boolean"
        | .num _ => types.contains "number" || types.contains "integer"
        | .float _ => types.contains "number"
        | .str s => types.contains "string" &&
            match (schema.get? "format").bind Json.asStr with
            | none => true
            | some format => stringFormat s == some format
        | .arr items => types.contains "array" &&
            match schema.get? "items" with
            | none => true
            | some itemSchema => conformItems items itemSchema
        | .obj fields => types.contains "object" &&
            (requiredOf schema).all (fun key => (fields.lookup key).isSome) &&
            conformFields fields (propertiesOf schema)
  | _ => false
  termination_by structural value

def conformItems (items : List Json) (itemSchema : Json) : Bool :=
  match items with
  | [] => true
  | item :: rest => conforms item itemSchema && conformItems rest itemSchema
  termination_by structural items

def conformFields (fields : List (String × Json)) (properties : List (String × Json)) : Bool :=
  match fields with
  | [] => true
  | field :: rest => conformField field properties && conformFields rest properties
  termination_by structural fields

def conformField (field : String × Json) (properties : List (String × Json)) : Bool :=
  match field with
  | (key, value) => match properties.lookup key with
    | none => true
    | some schema => conforms value schema
  termination_by structural field

end

end Teitunnel.OpenApi
