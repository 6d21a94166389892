import Blaize.Lib.Js
import Blaize.Lib.OrdMap

/-!
The bodies of the client's requests (`packages/blaize-client/src/file-detection.ts`,
`form-data-builder.ts`, `request-options-builder.ts`).

A `Value` is a tree of JavaScript values.  An object has its own enumerable properties and
what else can be read of it, and the brand that `instanceof` and `Buffer.isBuffer` see.

* `isFile`, `isBlob`, `isBuffer`, `isReadableStream`: the same in both modules;
* `containsFileObjects`: the detection, with the levels that are left;
* `FormData.append`: a `Blob` becomes a file entry, everything else its text;
* `appendToFormData`, `buildFormData`;
* `buildRequestOptions`.

`JSON.stringify` and `String` of an object are parameters.  Warnings are left out.
-/

namespace Blaize.Client.Multipart

/-! ### Values -/

/-- What `instanceof File`, `instanceof Blob` and `Buffer.isBuffer` answer; every `File` is a
`Blob`. -/
inductive Brand where
  | file
  | blob
  | buffer
  | other
  deriving DecidableEq

/-- A value; a number comes with its text. -/
inductive Value where
  | undefined
  | null
  | bool (value : Bool)
  | number (text : String)
  | string (text : String)
  | bigint (text : String)
  | symbol
  | function (id : ℕ)
  | array (items : List Value)
  | object (id : ℕ) (brand : Brand) (own inherited : List (String × Value))

namespace Value

/-- `typeof value === 'string'` -/
def isString : Value → Bool
  | string _ => true
  | _ => false

/-- `typeof value === 'number'` -/
def isNumber : Value → Bool
  | number _ => true
  | _ => false

/-- `typeof value === 'function'` -/
def isFunction : Value → Bool
  | function _ => true
  | _ => false

/-- `value === true` -/
def isTrue : Value → Bool
  | bool true => true
  | _ => false

/-- `value == null` -/
def isNullish : Value → Bool
  | undefined | null => true
  | _ => false

/-- The properties of a list; a later one replaces an earlier one of the same name. -/
def properties (list : List (String × Value)) : OrdMap String Value :=
  list.foldl (fun m e => m.set e.1 e.2) ∅

/-- The index keys of an array. -/
def indexed (items : List Value) : OrdMap String Value :=
  properties (items.zipIdx.map fun e => (toString e.2, e.1))

/-- `Object.entries`. -/
def entries : Value → OrdMap String Value
  | array items => indexed items
  | object _ _ own _ => properties own
  | _ => ∅

/-- A property of an object, its own or another one. -/
def get (v : Value) (name : String) : Value :=
  match v with
  | object _ _ own inherited =>
      ((properties own).get name).getD (((properties inherited).get name).getD undefined)
  | _ => undefined

/-- The class of an object. -/
def brand : Value → Brand
  | object _ brand _ _ => brand
  | _ => .other

/-- `value instanceof Blob`. -/
def isBlobInstance (v : Value) : Bool := v.brand = .file || v.brand = .blob

end Value

/-! ### File objects -/

/-- The methods that files and blobs have. -/
def hasFileMethods (obj : Value) : Bool :=
  ["arrayBuffer", "slice", "stream", "text"].all fun name => (obj.get name).isFunction

/-- A file, or what looks like one. -/
def isFile (value : Value) : Bool :=
  value.brand = .file ||
    ((value.get "name").isString && (value.get "size").isNumber && (value.get "type").isString &&
      hasFileMethods value)

/-- A blob, or what looks like one. -/
def isBlob (value : Value) : Bool :=
  value.isBlobInstance ||
    ((value.get "size").isNumber && (value.get "type").isString && hasFileMethods value)

/-- A buffer of Node. -/
def isBuffer (value : Value) : Bool := value.brand = .buffer

/-- A readable stream of Node, by its looks. -/
def isReadableStream (value : Value) : Bool :=
  (value.get "readable").isTrue &&
    ["pipe", "read", "on"].all fun name => (value.get name).isFunction

/-- What is sent as a file. -/
def isFileOrBlob (value : Value) : Bool := isFile value || isBlob value || isBuffer value

/-- What the detection takes for a file. -/
def isFileObject (value : Value) : Bool := isFileOrBlob value || isReadableStream value

/-- `containsFileObjectsRecursive`, with the number of levels below, `3 - depth`. -/
def containsFileObjectsRecursive (levels : ℕ) (obj : Value) : Bool :=
  if obj.isNullish then false
  else if isFileObject obj then true
  else
    match levels with
    | 0 => false
    | levels + 1 =>
        match obj with
        | .array items => items.any fun item => containsFileObjectsRecursive levels item
        | .object _ _ own _ =>
            (Value.properties own).values.any fun value => containsFileObjectsRecursive levels value
        | _ => false

/-- Whether a file is found up to three levels down. -/
def containsFileObjects (obj : Value) : Bool := containsFileObjectsRecursive 3 obj

/-! ### Forms -/

/-- An entry of the form: a file, or a text. -/
inductive FormEntry where
  | file (value : Value)
  | text (text : String)

/-- The entries in the order in which they were appended. -/
abbrev FormData := List (String × FormEntry)

/-- The texts that the language makes of a value: `JSON.stringify`, which may throw or
answer `undefined`, and `String`. -/
structure Texts where
  stringify : Value → Except String (Option String)
  toString : Value → String

variable (texts : Texts)

/-- The entry of `formData.append(key, value)`. -/
def FormData.entry (value : Value) : FormEntry :=
  if value.isBlobInstance then .file value else .text (texts.toString value)

/-- The entry of `formData.append(key, JSON.stringify(value))`. -/
def FormData.jsonEntry (value : Value) : Except String FormEntry := do
  let json ← texts.stringify value
  pure (.text (json.getD "undefined"))

/-- The entries that `appendToFormData` appends under its key. -/
def appendToFormData (value : Value) : Except String (List FormEntry) :=
  if value.isNullish || value.isFunction then .ok []
  else if isFileOrBlob value then .ok [FormData.entry texts value]
  else
    match value with
    | .array items =>
        if items.isEmpty then .ok []
        else if items.all isFileOrBlob then .ok (items.map (FormData.entry texts))
        else do
          let entry ← FormData.jsonEntry texts value
          pure [entry]
    | .string text => .ok [.text text]
    | .number text => .ok [.text text]
    | .bool value => .ok [.text (toString value)]
    | .object _ _ _ _ => do
        let entry ← FormData.jsonEntry texts value
        pure [entry]
    | _ => .ok []

/-- The arguments of a request that are read here. -/
structure InternalRequestArgs where
  body : Value := .undefined
  files : Value := .undefined

/-- `Object.assign`; a property with the name `__proto__` becomes the prototype instead. -/
def assign (target : OrdMap String Value) (source : Value) : OrdMap String Value :=
  source.entries.entries.foldl
    (fun target e => if e.1 = "__proto__" then target else target.set e.1 e.2) target

/-- The properties of the body, and over them those of the files. -/
def allData (args : InternalRequestArgs) : OrdMap String Value :=
  assign (assign ∅ args.body) args.files

/-- The loop of `buildFormData`. -/
def appendAll : List (String × Value) → Except String FormData
  | [] => .ok []
  | (key, value) :: rest => do
      let entries ← appendToFormData texts value
      let formData ← appendAll rest
      pure (entries.map (key, ·) ++ formData)

/-- The form of a request. -/
def buildFormData (args : InternalRequestArgs) : Except String FormData :=
  appendAll texts (allData args).entries

/-! ### Request options -/

/-- The configuration of the client that is read here. -/
structure ClientConfig where
  defaultHeaders : OrdMap String String := ∅
  timeout : Option ℕ := none

/-- The body that is given to `fetch`. -/
inductive RequestBody where
  | undefined
  | text (text : String)
  | formData (formData : FormData)

/-- The options that a request is made with. -/
structure RequestOptions where
  method : String
  url : String := ""
  headers : OrdMap String String
  body : RequestBody
  timeout : ℕ

/-- The methods whose requests have no body. -/
def methodsWithoutBody : List String := ["GET", "HEAD", "DELETE", "OPTIONS"]

variable (letters : Js.CaseMapping)

/-- The body and the headers; a falsy `files` or `body` contains no file either. -/
def requestBody (upperMethod : String) (args : InternalRequestArgs)
    (headers : OrdMap String String) : Except String (RequestBody × OrdMap String String) :=
  if methodsWithoutBody.contains upperMethod then .ok (.undefined, headers)
  else if containsFileObjects args.files || containsFileObjects args.body then do
    let formData ← buildFormData texts args
    pure (.formData formData, headers)
  else
    match args.body with
    | .undefined => .ok (.undefined, headers)
    | body => do
        let json ← texts.stringify body
        pure ((json.map RequestBody.text).getD .undefined,
          headers.set "Content-Type" "application/json")

/-- The options of a request. -/
def buildRequestOptions (config : ClientConfig) (method : String) (args : InternalRequestArgs)
    (correlationId : Option String) : Except String RequestOptions := do
  let headers :=
    match correlationId with
    | none | some "" => config.defaultHeaders
    | some id => config.defaultHeaders.set "x-correlation-id" id
  let upperMethod := letters.toUpperCase method
  let (body, headers) ← requestBody texts upperMethod args headers
  let timeout :=
    match config.timeout with
    | none | some 0 => 30000
    | some timeout => timeout
  pure { method := upperMethod, headers := headers, body := body, timeout := timeout }

end Blaize.Client.Multipart
