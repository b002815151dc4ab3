import DaoGen.Declaration
import DaoGen.Declaration.Argument
import DaoGen.Declaration.WrittenType

/-!
# Annotations from attributes

An attribute of a known name becomes the annotation that it stands for, or an invalid one if its
arguments do not fit. Any other attribute is kept as its text. A name counts on its own and after
the name of the library.
-/
namespace DaoGen

open Code

namespace Code.Attribute

/-- The name by which an attribute is known. -/
def marker? (a : Attribute) : Option String :=
  match a.path with
  | [name] => some name
  | ["replikit", name] => some name
  | _ => none

/-- An attribute as written. -/
def text (a : Attribute) : String := textOf a.tokens

/-- Whether an attribute is a mere name. -/
def isWord (a : Attribute) : Bool :=
  match a.arguments with
  | .none => true
  | _ => false

/-- What follows the path of an attribute, as for an argument. -/
def value (a : Attribute) : ArgumentValue := Argument.valueOf a.arguments

/-- Whether an attribute stands inside of what it is about. -/
def isInner (a : Attribute) : Bool :=
  match a.tokens with
  | _ :: .punct '!' _ :: _ => true
  | _ => false

/-- How an attribute of this path takes arguments. -/
def usage (a : Attribute) : String :=
  (if a.isInner then "#!" else "#") ++ "[" ++ joinedPath a.absolute a.path ++ "(...)]"

end Code.Attribute

namespace Annotation

def kept (a : Attribute) : Annotation := .passthrough a.text

/-- The annotation that arguments stand for, under the name of their attribute. -/
def ofReading {T : Type} (name : String) (make : T → Annotation) :
    Except ArgumentFault T → Annotation
  | .ok value => make value
  | .error fault => .invalid name fault.message

/-- The annotation of an attribute that takes no arguments. -/
def ofWord (a : Attribute) (name : String) (mark : Annotation) : Annotation :=
  if a.isWord then mark else .invalid name "takes no arguments"

/-! ## Attributes of declarations -/

/-- The arguments of an index. -/
def readIndex : ArgumentReader IndexSpec :=
  .ofForm (Argument.readForm
    [.mandatory "columns" ArgumentReader.paths, .optional "unique" ArgumentReader.flag,
      .optional "name" ArgumentReader.text]
    fun arguments =>
      { columns := (Argument.value? "columns" ArgumentReader.paths arguments).getD []
        unique := (Argument.value? "unique" ArgumentReader.flag arguments).getD false
        name := (Argument.value? "name" ArgumentReader.text arguments).getD "" })

/-- The arguments of an entity: each says something of its own. -/
def readEntity : ArgumentReader (List Annotation) :=
  .ofForm (Argument.readForm
    [.optional "table" ArgumentReader.text, .optional "attachment" ArgumentReader.flag,
      .repeated "index" readIndex]
    fun arguments =>
      .entity (Argument.value? "table" ArgumentReader.text arguments) ::
        (if (Argument.value? "attachment" ArgumentReader.flag arguments).getD false then
          [.withAttachment] else []) ++
        (Argument.values "index" readIndex arguments).map .index)

/-- The arguments of a database. -/
def readDatabase : ArgumentReader DatabaseSpec :=
  .ofForm (Argument.readForm
    [.mandatory "version" ArgumentReader.number, .mandatory "entities" ArgumentReader.paths,
      .optional "daos" ArgumentReader.paths]
    fun arguments =>
      { version := (Argument.value? "version" ArgumentReader.number arguments).getD 0
        entities := (Argument.value? "entities" ArgumentReader.paths arguments).getD []
        daos := (Argument.value? "daos" ArgumentReader.paths arguments).getD [] })

def ofEntity (a : Attribute) : List Annotation :=
  if a.isWord then [.entity none]
  else
    match readEntity a.value with
    | .ok annotations => annotations
    | .error fault => [.invalid "entity" fault.message]

/-- The annotations of an attribute of a struct or trait. -/
def ofDeclarationAttribute (a : Attribute) : List Annotation :=
  match a.marker? with
  | some "entity" => ofEntity a
  | some "dao" => [ofWord a "dao" .dao]
  | some "database" => [ofReading "database" .database (readDatabase a.value)]
  | _ => [kept a]

/-! ## Attributes of members -/

/-- The only argument of an attribute, a mere flag, which may be missing. -/
def readFlag (name : String) (a : Attribute) : Except ArgumentFault Bool :=
  if a.isWord then .ok false
  else
    ArgumentReader.ofForm (Argument.readForm [.optional name ArgumentReader.flag]
      fun arguments =>
        (Argument.value? name ArgumentReader.flag arguments).getD false) a.value

/-- Reads the name of a dialect. -/
def readDialect : ArgumentReader Dialect :=
  .ofLiteral fun
    | .string written =>
      match Dialect.ofName? written with
      | some dialect => .ok dialect
      | none => .error (.unknownValue written)
    | value => .error (.unexpectedType (ArgumentReader.typeName value))

/-- A dialect and the query for it. -/
def readDialectQuery : ArgumentReader (Dialect × String) :=
  .ofForm (Argument.readForm
    [.mandatory "dialect" readDialect, .mandatory "sql" ArgumentReader.text]
    fun arguments =>
      ((Argument.value? "dialect" readDialect arguments).getD .sqlite,
        (Argument.value? "sql" ArgumentReader.text arguments).getD ""))

/-- The text between the brackets of an attribute that takes only that. -/
def readSql (a : Attribute) : Except ArgumentFault String :=
  match a.arguments with
  | .none =>
    .error (.unreadable ("expected attribute arguments in parentheses: " ++ a.usage))
  | .value _ => .error (.unreadable ("expected parentheses: " ++ a.usage))
  | .list _ tokens =>
    let unreadable (fault : GrammarFault) := ArgumentFault.unreadable fault.message
    match literalAhead? tokens with
    | some (.string value) =>
      if tokens.length = 1 then .ok value else .error (unreadable (.leftover none))
    | _ => .error (unreadable (.expected ["string literal"] tokens.isEmpty))

/-- The dialect whose name stands before `_query`. -/
def dialectOfMarker? (name : String) : Option Dialect :=
  (Text.stripSuffix? "_query" name).bind Dialect.ofName?

/-- The annotation of an attribute of a field or method. -/
def ofMemberAttribute (a : Attribute) : Annotation :=
  match a.marker? with
  | none => kept a
  | some name =>
    match name with
    | "primary_key" => ofReading name .primaryKey (readFlag "auto_generate" a)
    | "attachment_uri" => ofWord a name (.attachment .uri)
    | "attachment_md5" => ofWord a name (.attachment .md5)
    | "attachment_size" => ofWord a name (.attachment .size)
    | "query" => ofReading name .query (readSql a)
    | "dialect_query" =>
      ofReading name (fun (dialect, sql) => .dialectQuery dialect sql) (readDialectQuery a.value)
    | "insert" => ofReading name .insert (readFlag "replace" a)
    | "update" => ofWord a name .update
    | "delete" => ofWord a name .delete
    | _ =>
      match dialectOfMarker? name with
      | some dialect => ofReading name (.dialectQuery dialect) (readSql a)
      | none => kept a

/-- The annotation of an attribute of a parameter. -/
def ofParamAttribute (a : Attribute) : Annotation :=
  match a.marker? with
  | some "db_type" => ofWord a "db_type" .dbType
  | _ => kept a

end Annotation

end DaoGen
