import ApiCatalog.Document.Decode
import ApiCatalog.Json.Reader
import ApiCatalog.Yaml.Reader

set_option autoImplicit false

/-!
# Loading documents

A document is read from bytes in JSON or YAML; the extension of a file's name tells which.

## Main definitions

* `ApiCatalog.DocumentFormat`: the formats.
* `DocumentFormat.ofPath`: the format of a file.
* `ApiCatalog.LoadError`: why bytes are no document.
* `Document.ofBytes`: the document that bytes spell.
-/

namespace ApiCatalog

/-- A format of documents. -/
inductive DocumentFormat where
  | json
  | yaml
deriving DecidableEq, Repr

namespace DocumentFormat

/-- The word for a format. -/
def label : DocumentFormat → String
  | .json => "json"
  | .yaml => "yaml"

/-- The format of an extension, in whatever ASCII case it is written. -/
def ofExtension (extension : String) : DocumentFormat :=
  let lower := extension.toList.map Char.toLower
  if lower = ['y', 'a', 'm', 'l'] || lower = ['y', 'm', 'l'] then .yaml else .json

/-- The last part of a path that names a file; parts that name nothing are passed over. -/
def fileName? (path : String) : Option (List Char) :=
  let parts := (path.toList.splitOnP (· = '/')).filter fun part => !part.isEmpty && part ≠ ['.']
  match parts.getLast? with
  | some part => if part = ['.', '.'] then none else some part
  | none => none

/-- The extension of a path: what follows the last dot of the file's name, unless that dot is the
first character. -/
def extension? (path : String) : Option String := do
  let name ← fileName? path
  let reversed := name.reverse
  match reversed.dropWhile (· ≠ '.') with
  | '.' :: _ :: _ => some (String.ofList (reversed.takeWhile (· ≠ '.')).reverse)
  | _ => none

/-- The format of a file, which is JSON unless its extension says otherwise. -/
def ofPath (path : String) : DocumentFormat :=
  match extension? path with
  | some extension => ofExtension extension
  | none => .json

end DocumentFormat

/-- What is wrong with a JSON document. -/
inductive JsonProblem where
  /-- The text is not JSON. -/
  | malformed
  /-- The text ends too early. -/
  | endOfInput
  /-- The text is JSON, but not of a document's shape. -/
  | shape
deriving DecidableEq, Repr

/-- The word for what is wrong with a JSON document. -/
def JsonProblem.label : JsonProblem → String
  | .malformed => "syntax"
  | .endOfInput => "eof"
  | .shape => "data"

/-- Why there is no document. -/
inductive LoadError where
  | unreadable (path : String)
  | json (problem : JsonProblem)
  | utf8 (fault : Text.Utf8Fault)
  | yaml
deriving DecidableEq, Repr

/-- The wording of a failure to load. -/
def LoadError.message : LoadError → String
  | .unreadable path => "failed to read '" ++ path ++ "'"
  | .json problem => "invalid JSON document: " ++ problem.label
  | .utf8 fault => "YAML document is not valid UTF-8: " ++ fault.message
  | .yaml => "invalid YAML document"

namespace Document

/-- The document that bytes spell in JSON. -/
def ofJsonBytes (bytes : List UInt8) : Except LoadError Document :=
  match Json.readObject Json.nestingLimit bytes with
  | .error .endOfInput => .error (.json .endOfInput)
  | .error .malformed => .error (.json .malformed)
  | .ok value =>
    match value.bind fun value => ofData? (.ofJson value) with
    | some document => .ok document
    | none => .error (.json .shape)

/-- The document that bytes spell in YAML. -/
def ofYamlBytes (bytes : List UInt8) : Except LoadError Document :=
  match Text.decodeUtf8 bytes with
  | .error fault => .error (.utf8 fault)
  | .ok text =>
    match (Yaml.read text).bind ofData? with
    | some document => .ok document
    | none => .error .yaml

/-- The document that bytes spell in a format. -/
def ofBytes (format : DocumentFormat) (bytes : List UInt8) : Except LoadError Document :=
  match format with
  | .json => ofJsonBytes bytes
  | .yaml => ofYamlBytes bytes

end Document

end ApiCatalog
