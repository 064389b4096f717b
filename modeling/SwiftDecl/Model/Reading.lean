import SwiftDecl.Declaration
import SwiftDecl.Model.Shape

/-!
# SwiftDecl.Model.Reading

Declarations from data. Every reader takes the notation that the data comes from.
-/

namespace SwiftDecl
namespace Model

def readType (dialect : Dialect) (d : Data) : Except Fault TypeRef :=
  match readText dialect d with
  | .error e => .error e
  | .ok s => (TypeRef.parse s).mapError (.typeRef s)

def readVersion (dialect : Dialect) (d : Data) : Except Fault SwiftVersion :=
  match readText dialect d with
  | .error e => .error e
  | .ok s => (SwiftVersion.parse s).mapError .version

/-- An integer that does not fit becomes a double; what is neither a scalar nor a table with a
text under `string` is no expression. -/
def expressionOf : Data → Option Expression
  | .bool b => some (.bool b)
  | .integer i =>
    if Number.isInt64 i then some (.integer (Int64.ofInt i))
    else some (.double (Binary64.ofInt i))
  | .double x => some (.double x)
  | .table ms _ => (onlyText "string" ms).map .string
  | .null => some .nil
  | .string s => some (.raw s)
  | _ => none

def readExpression (dialect : Dialect) (d : Data) : Except Fault Expression :=
  match survey dialect d with
  | .error e => .error e
  | .ok () =>
    match expressionOf d with
    | some e => .ok e
    | none => .error (.noVariant "Expression")

/-- The type under a key that occurs once. -/
def onlyType (key : String) (ms : Members) : Option TypeRef :=
  match onlyText key ms with
  | none => none
  | some s => (TypeRef.parse s).toOption

/-- A conformance if it can be read as one, else an equality of types. -/
def constraintOf : Data → Option GenericConstraint
  | .table ms _ =>
    match onlyText "name" ms with
    | none => none
    | some name =>
      match onlyType "conforms_to" ms with
      | some t => some (.conformance name t)
      | none => (onlyType "same_type" ms).map (.sameType name)
  | _ => none

def readConstraint (dialect : Dialect) (d : Data) : Except Fault GenericConstraint :=
  match survey dialect d with
  | .error e => .error e
  | .ok () =>
    match constraintOf d with
    | some c => .ok c
    | none => .error (.noVariant "GenericConstraint")

def variableShape : Shape Variable where
  title := "Variable"
  fields := [⟨"name", true⟩, ⟨"public", false⟩, ⟨"readonly", false⟩, ⟨"type", false⟩,
    ⟨"value", false⟩, ⟨"comment", false⟩]
  blank := { name := "" }

def setVariable (dialect : Dialect) (key : String) (d : Data) (v : Variable) :
    Except Fault Variable :=
  match key with
  | "name" => (readText dialect d).map fun x => { v with name := x }
  | "public" => (readBool dialect d).map fun x => { v with isPublic := x }
  | "readonly" => (readBool dialect d).map fun x => { v with isReadonly := x }
  | "type" => (readOption (readType dialect) d).map fun x => { v with type := x }
  | "value" => (readOption (readExpression dialect) d).map fun x => { v with value := x }
  | "comment" => (readOption (readText dialect) d).map fun x => { v with comment := x }
  | _ => .ok v

def readVariable (dialect : Dialect) : Data → Except Fault Variable :=
  variableShape.read dialect (setVariable dialect)

def parameterShape : Shape Parameter where
  title := "Parameter"
  fields := [⟨"label", false⟩, ⟨"name", true⟩, ⟨"type", true⟩, ⟨"default", false⟩,
    ⟨"inout", false⟩]
  blank := { name := "", type := .named "" }

def setParameter (dialect : Dialect) (key : String) (d : Data) (p : Parameter) :
    Except Fault Parameter :=
  match key with
  | "label" => (readOption (readText dialect) d).map fun x => { p with label := x }
  | "name" => (readText dialect d).map fun x => { p with name := x }
  | "type" => (readType dialect d).map fun x => { p with type := x }
  | "default" => (readOption (readExpression dialect) d).map fun x => { p with defaultValue := x }
  | "inout" => (readBool dialect d).map fun x => { p with isInout := x }
  | _ => .ok p

def readParameter (dialect : Dialect) : Data → Except Fault Parameter :=
  parameterShape.read dialect (setParameter dialect)

def functionShape : Shape FunctionDecl where
  title := "FunctionDefinition"
  fields := [⟨"name", true⟩, ⟨"public", false⟩, ⟨"generic_parameters", false⟩,
    ⟨"parameters", false⟩, ⟨"async", false⟩, ⟨"throws", false⟩, ⟨"return_type", false⟩,
    ⟨"generic_constraints", false⟩, ⟨"comment", false⟩, ⟨"inlinable", false⟩,
    ⟨"discardable_result", false⟩, ⟨"body", false⟩]
  blank := { name := "" }

def setFunction (dialect : Dialect) (key : String) (d : Data) (f : FunctionDecl) :
    Except Fault FunctionDecl :=
  match key with
  | "name" => (readText dialect d).map fun x => { f with name := x }
  | "public" => (readBool dialect d).map fun x => { f with isPublic := x }
  | "generic_parameters" =>
    (readList dialect (readText dialect) d).map fun x => { f with genericParameters := x }
  | "parameters" =>
    (readList dialect (readParameter dialect) d).map fun x => { f with parameters := x }
  | "async" => (readBool dialect d).map fun x => { f with isAsync := x }
  | "throws" => (readBool dialect d).map fun x => { f with canThrow := x }
  | "return_type" => (readOption (readType dialect) d).map fun x => { f with returnType := x }
  | "generic_constraints" =>
    (readList dialect (readConstraint dialect) d).map fun x => { f with constraints := x }
  | "comment" => (readOption (readText dialect) d).map fun x => { f with comment := x }
  | "inlinable" => (readBool dialect d).map fun x => { f with isInlinable := x }
  | "discardable_result" =>
    (readBool dialect d).map fun x => { f with hasDiscardableResult := x }
  | "body" => (readList dialect (readText dialect) d).map fun x => { f with body := x }
  | _ => .ok f

def readFunction (dialect : Dialect) : Data → Except Fault FunctionDecl :=
  functionShape.read dialect (setFunction dialect)

def aliasShape : Shape TypeAlias where
  title := "TypeAlias"
  fields := [⟨"name", true⟩, ⟨"type", true⟩, ⟨"public", false⟩]
  blank := { name := "", type := .named "" }

def setAlias (dialect : Dialect) (key : String) (d : Data) (a : TypeAlias) :
    Except Fault TypeAlias :=
  match key with
  | "name" => (readText dialect d).map fun x => { a with name := x }
  | "type" => (readType dialect d).map fun x => { a with type := x }
  | "public" => (readBool dialect d).map fun x => { a with isPublic := x }
  | _ => .ok a

def readAlias (dialect : Dialect) : Data → Except Fault TypeAlias :=
  aliasShape.read dialect (setAlias dialect)

def kindNames : List String := ["struct", "class", "final_class", "enum"]

def kindOfText (s : String) : Except Fault TypeKind :=
  match s with
  | "struct" => .ok .struct
  | "class" => .ok .ordinaryClass
  | "final_class" => .ok .finalClass
  | "enum" => .ok .enum
  | s => .error (.unknownVariant s kindNames)

/-- What stands beside the name of a kind that is written as the key of a table: in JSON a `null`
and no further member. -/
def readJsonUnit (d : Data) (more : Members) (closed : Bool) : Except Fault Unit :=
  match d with
  | .null => if more.isEmpty && closed then .ok () else .error .malformed
  | d => .error (mismatch .json "unit" d)

/-- In TOML, an empty container. -/
def readTomlUnit : Data → Except Fault Unit
  | .array [] _ | .table [] _ => .ok ()
  | .array _ _ => .error (.notEmpty "array")
  | .table _ _ => .error (.notEmpty "table")
  | .bool _ => .error (.notTable "boolean")
  | .integer _ | .unusable .integerOverflow => .error (.notTable "integer")
  | .double _ | .unusable .doubleOverflow => .error (.notTable "float")
  | .dateTime => .error (.notTable "datetime")
  | _ => .error (.notTable "string")

/-- The name of a kind, or a table with that name as its only key. -/
def readKind (dialect : Dialect) (d : Data) : Except Fault TypeKind :=
  match d, dialect with
  | .string s, _ => kindOfText s
  | .table ((_, .misnamed _) :: _) _, .json => .error .malformed
  | .table ((key, x) :: more) closed, .json =>
    match kindOfText key with
    | .error e => .error e
    | .ok kind => (readJsonUnit x more closed).map fun _ => kind
  | _, .json => .error .malformed
  | .table [(key, x)] _, .toml =>
    match kindOfText key with
    | .error e => .error e
    | .ok kind => (readTomlUnit x).map fun _ => kind
  | .table ms _, .toml => .error (.notOneMember ms.isEmpty)
  | _, .toml => .error .notStringOrTable

def typeDeclShape : Shape TypeDecl where
  title := "TypeDefinition"
  fields := [⟨"name", true⟩, ⟨"kind", false⟩, ⟨"public", false⟩, ⟨"conformances", false⟩,
    ⟨"comment", false⟩, ⟨"type_aliases", false⟩, ⟨"type_variables", false⟩,
    ⟨"variables", false⟩, ⟨"nested_types", false⟩, ⟨"type_functions", false⟩,
    ⟨"functions", false⟩]
  blank := { name := "" }

/-- The fields of a type declaration other than its nested types. -/
def setTypeDecl (dialect : Dialect) (key : String) (d : Data) (t : TypeDecl) :
    Except Fault TypeDecl :=
  match key with
  | "name" => (readText dialect d).map fun x => { t with name := x }
  | "kind" => (readKind dialect d).map fun x => { t with kind := x }
  | "public" => (readBool dialect d).map fun x => { t with isPublic := x }
  | "conformances" =>
    (readList dialect (readType dialect) d).map fun x => { t with conformances := x }
  | "comment" => (readOption (readText dialect) d).map fun x => { t with comment := x }
  | "type_aliases" => (readList dialect (readAlias dialect) d).map fun x => { t with aliases := x }
  | "type_variables" =>
    (readList dialect (readVariable dialect) d).map fun x => { t with typeVariables := x }
  | "variables" =>
    (readList dialect (readVariable dialect) d).map fun x => { t with instanceVariables := x }
  | "type_functions" =>
    (readList dialect (readFunction dialect) d).map fun x => { t with typeFunctions := x }
  | "functions" =>
    (readList dialect (readFunction dialect) d).map fun x => { t with functions := x }
  | _ => .ok t

def readTypeDecl (dialect : Dialect) (d : Data) : Except Fault TypeDecl :=
  typeDeclShape.readWith dialect d fun key x _ t =>
    if key = "nested_types" then
      (readListWith dialect x fun y _ => readTypeDecl dialect y).map fun ts =>
        { t with nestedTypes := ts }
    else setTypeDecl dialect key x t
termination_by sizeOf d

def extensionShape : Shape Extension where
  title := "Extension"
  fields := [⟨"extended_type", true⟩, ⟨"public", false⟩, ⟨"conformances", false⟩,
    ⟨"generic_constraints", false⟩, ⟨"minimum_swift_version", false⟩,
    ⟨"required_imports", false⟩, ⟨"type_definitions", false⟩, ⟨"type_variables", false⟩,
    ⟨"type_functions", false⟩, ⟨"functions", false⟩]
  blank := { extendedType := .named "" }

def setExtension (dialect : Dialect) (key : String) (d : Data) (e : Extension) :
    Except Fault Extension :=
  match key with
  | "extended_type" => (readType dialect d).map fun x => { e with extendedType := x }
  | "public" => (readBool dialect d).map fun x => { e with isPublic := x }
  | "conformances" =>
    (readList dialect (readType dialect) d).map fun x => { e with conformances := x }
  | "generic_constraints" =>
    (readList dialect (readConstraint dialect) d).map fun x => { e with constraints := x }
  | "minimum_swift_version" =>
    (readOption (readVersion dialect) d).map fun x => { e with minimumVersion := x }
  | "required_imports" =>
    (readList dialect (readText dialect) d).map fun x => { e with requiredImports := x }
  | "type_definitions" =>
    (readList dialect (readTypeDecl dialect) d).map fun x => { e with typeDecls := x }
  | "type_variables" =>
    (readList dialect (readVariable dialect) d).map fun x => { e with typeVariables := x }
  | "type_functions" =>
    (readList dialect (readFunction dialect) d).map fun x => { e with typeFunctions := x }
  | "functions" =>
    (readList dialect (readFunction dialect) d).map fun x => { e with functions := x }
  | _ => .ok e

def readExtension (dialect : Dialect) : Data → Except Fault Extension :=
  extensionShape.read dialect (setExtension dialect)

/-- Reads a JSON text. -/
def ofJson {α : Type} (read : Data → Except Fault α) (data : Data × Bool) : Except Fault α :=
  match read data.1 with
  | .error e => .error e
  | .ok a => if data.2 then .ok a else .error .malformed

end Model
end SwiftDecl
