import Blaize.Lib.Json
import Blaize.Lib.OrdMap

/-!
The transport for JSON lines (`packages/blaize-core/src/logger/transports/json.ts`, `utils.ts`).

* `Metadata`: the metadata, an object in a graph of objects that may be shared and cyclic;
* `serializeMetadata`: Errors become plain objects, down to the second level;
* `stringifyValue`: `JSON.stringify` with the replacer of `createCircularReplacer`, which
  remembers the objects that it has seen;
* `JSONTransport.write`: the line.

Objects have their own properties, with values and no accessors.  One that has a method `toJSON`
has it from its class, and the method returns a primitive value, as those of `Date` and `URL` do.
Keys that are array indices, which JavaScript puts first, keep the place of their insertion.
-/

namespace Blaize.Logger

open Js

/-! ### Metadata -/

/-- The levels of an entry. -/
inductive LogLevel where
  | debug
  | info
  | warn
  | error
  deriving DecidableEq

/-- The name of a level. -/
def LogLevel.name : LogLevel → String
  | .debug => "debug"
  | .info => "info"
  | .warn => "warn"
  | .error => "error"

/-- A value that is no object; a function or a symbol counts as `undefined`, and the number is
missing for `NaN` and the infinities. -/
inductive Primitive where
  | undefined
  | null
  | bool (value : Bool)
  | number (value : Option Number)
  | string (value : String)
  | bigint (value : ℤ)
  deriving DecidableEq

/-- A value among `n` objects. -/
inductive Value (n : ℕ) where
  | primitive (p : Primitive)
  | object (o : Fin n)
  deriving DecidableEq

/-- What is kept of an error. -/
structure SerializedError where
  message : String
  name : String
  stack : Option String

/-- What an object is. -/
inductive Node (n : ℕ) where
  | object (entries : OrdMap String (Value n))
  | array (items : List (Value n))
  | error (error : SerializedError) (entries : OrdMap String (Value n))
  | custom (isDate : Bool) (toJSON : Primitive) (entries : OrdMap String (Value n))

/-- `LogMetadata`: a plain object in a graph of objects. -/
structure Metadata where
  size : ℕ
  node : Fin size → Node size
  root : Fin size
  entries : OrdMap String (Value size)
  node_root : node root = .object entries

/-! ### The serialization of Errors -/

/-- A value of a fresh object or array. -/
inductive Item (n : ℕ) where
  | raw (value : Value n)
  | error (error : SerializedError)

/-- A value of `serialized`. -/
inductive Field (n : ℕ) where
  | raw (value : Value n)
  | error (error : SerializedError)
  | array (items : List (Item n))
  | object (entries : OrdMap String (Item n))

/-- `target[key] = value` for a fresh object; to `__proto__` it adds no property. -/
def assign {α : Type} (target : OrdMap String α) (key : String) (value : α) : OrdMap String α :=
  if key = "__proto__" then target else target.set key value

/-- The loop over `Object.entries(source)` that assigns to a fresh object. -/
def copy {α β : Type} (f : α → β) (source : OrdMap String α) : OrdMap String β :=
  source.entries.foldl (fun target entry => assign target entry.1 (f entry.2)) ∅

namespace Metadata

variable (g : Metadata)

/-- `isError(value)`, with `serializeError(value)`. -/
def errorOf : Value g.size → Option SerializedError
  | .primitive _ => none
  | .object o =>
      match g.node o with
      | .error e _ => some e
      | _ => none

/-- An item of an array: errors are replaced by their data. -/
def serializeItem (value : Value g.size) : Item g.size :=
  match g.errorOf value with
  | some e => .error e
  | none => .raw value

/-- A value of the metadata, with the errors in it replaced. -/
def serializeValue : Value g.size → Field g.size
  | .primitive p => .raw (.primitive p)
  | .object o =>
      match g.node o with
      | .error e _ => .error e
      | .array items => .array (items.map g.serializeItem)
      | .custom true _ _ => .raw (.object o)
      | .custom false _ entries => .object (copy g.serializeItem entries)
      | .object entries => .object (copy g.serializeItem entries)

/-- The metadata as they are given to `JSON.stringify`. -/
def serializeMetadata : OrdMap String (Field g.size) := copy g.serializeValue g.entries

/-- `{ level, message, ...serializedMeta }` -/
def logEntry (level : LogLevel) (message : String) : OrdMap String (Field g.size) :=
  g.serializeMetadata.entries.foldl (fun entry field => entry.set field.1 field.2)
    ((OrdMap.set ∅ "level" (.raw (.primitive (.string level.name)))).set "message"
      (.raw (.primitive (.string message))))

end Metadata

/-! ### `JSON.stringify` with the replacer -/

/-- The text of a primitive value, `none` inside when it is left out; a BigInt throws. -/
def Primitive.json : Primitive → Option (Option Json)
  | .undefined => some none
  | .null => some (some .null)
  | .bool value => some (some (.bool value))
  | .number none => some (some .null)
  | .number (some value) => some (some (.number value))
  | .string value => some (some (.string value))
  | .bigint _ => none

/-- The data of an error. -/
def SerializedError.json (e : SerializedError) : Json :=
  .object ([("message", .string e.message), ("name", .string e.name)] ++
    e.stack.toList.map fun stack => ("stack", .string stack))

/-- The keys of an object, or none for an array. -/
inductive Shape where
  | object (keys : List String)
  | array

/-- The members of an object, without those that are left out. -/
def members (keys : List String) (jsons : List (Option Json)) : List (String × Json) :=
  (keys.zip jsons).filterMap fun (key, json) => json.map (key, ·)

/-- The text of an object or an array from those of its values; what is left out of an object is
`null` in an array. -/
def Shape.json : Shape → List (Option Json) → Json
  | .object keys, jsons => .object (members keys jsons)
  | .array, jsons => .array (jsons.map (·.getD .null))

/-- What `JSON.stringify` sees of an object: what its method `toJSON` returns, or its values. -/
inductive Contents (n : ℕ) where
  | leaf (p : Primitive)
  | values (shape : Shape) (values : List (Value n))

/-- What `JSON.stringify` visits of an object. -/
def Node.contents {n : ℕ} : Node n → Contents n
  | .object entries => .values (.object entries.keys) entries.values
  | .array items => .values .array items
  | .error _ entries => .values (.object entries.keys) entries.values
  | .custom _ toJSON _ => .leaf toJSON

/-- What stands in the place of an object that was seen before. -/
def circular : Json := .string "[Circular]"

/-- The values of an object or an array, one after the other; `none` when something throws. -/
def stringifyAll {α σ : Type} (f : α → σ → Option (Option Json × σ)) :
    List α → σ → Option (List (Option Json) × σ)
  | [], seen => some ([], seen)
  | value :: values, seen => do
      let (json, seen) ← f value seen
      let (jsons, seen) ← stringifyAll f values seen
      some (json :: jsons, seen)

namespace Metadata

variable (g : Metadata)

instance : LawfulBEq (Fin g.size) := inferInstance

/-- The objects that the replacer has seen. -/
abbrev Seen := List (Fin g.size)

/-- A value, with the objects seen; the fuel bounds the depth. -/
def stringifyValue : ℕ → Value g.size → g.Seen → Option (Option Json × g.Seen)
  | _, .primitive p, seen => p.json.map (·, seen)
  | 0, .object _, _ => none
  | fuel + 1, .object o, seen =>
      match (g.node o).contents with
      | .leaf p => p.json.map (·, seen)
      | .values shape values =>
          if o ∈ seen then some (some circular, seen)
          else (stringifyAll (stringifyValue fuel) values (o :: seen)).map fun (jsons, seen) =>
            (some (shape.json jsons), seen)

/-- A value of a fresh object; what is made for it is seen once only. -/
def stringifyItem : Item g.size → g.Seen → Option (Option Json × g.Seen)
  | .raw value, seen => g.stringifyValue (g.size + 1) value seen
  | .error e, seen => some (some e.json, seen)

/-- A field of the entry, with the objects that were seen on the way. -/
def stringifyField : Field g.size → g.Seen → Option (Option Json × g.Seen)
  | .raw value, seen => g.stringifyValue (g.size + 1) value seen
  | .error e, seen => some (some e.json, seen)
  | .array items, seen =>
      (stringifyAll g.stringifyItem items seen).map fun (jsons, seen) =>
        (some (Shape.array.json jsons), seen)
  | .object entries, seen =>
      (stringifyAll g.stringifyItem entries.values seen).map fun (jsons, seen) =>
        (some ((Shape.object entries.keys).json jsons), seen)

end Metadata

/-- `JSONTransport.write`: the line that is printed, `none` when it throws. -/
def JSONTransport.write (level : LogLevel) (message : String) (g : Metadata) : Option String :=
  let entry := g.logEntry level message
  (stringifyAll g.stringifyField entry.values []).map fun (jsons, _) =>
    (Json.object (members entry.keys jsons)).stringify

end Blaize.Logger
