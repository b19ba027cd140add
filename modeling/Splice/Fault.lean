import Splice.Remote.Failure
import Splice.Text.Utf8
import Splice.Value
import Splice.Words

namespace Splice

inductive Refusal
  | absent
  | denied
  | existing
  | notDirectory
  | isDirectory
  | nameTooLong
  | tooManyLinks
  deriving DecidableEq, Repr

namespace Refusal

def code : Refusal → Nat
  | absent => 2
  | denied => 13
  | existing => 17
  | notDirectory => 20
  | isDirectory => 21
  | nameTooLong => 36
  | tooManyLinks => 40

def text : Refusal → String
  | absent => "No such file or directory"
  | denied => "Permission denied"
  | existing => "File exists"
  | notDirectory => "Not a directory"
  | isDirectory => "Is a directory"
  | nameTooLong => "File name too long"
  | tooManyLinks => "Too many levels of symbolic links"

end Refusal

inductive Fault
  | tooManyWords
  | missingTarget
  /-- A directive whose line has no words. -/
  | unsplittable (line : String) (why : Words.Invalid)
  /-- No file or directory is there; `place` is where the target leads. -/
  | notFound (source place : String)
  /-- Reading or fetching `source` failed. -/
  | failed (source : String) (why : Fault)
  | invalidYaml (path what : String)
  | notMapping (path : String)
  /-- A variable that is the bare beginning of a setting's name. -/
  | emptyName
  /-- A variable whose name has an empty segment. -/
  | emptySegment (name : String)
  | notNested (path : List String) (key : String)
  | violation (schema location message : String)
  /-- One of this library's own failures with a given wording and context. -/
  | raised (kind : Kind) (message : String) (context : Mapping)
  | refused (why : Refusal) (path : String)
  | embeddedNul
  | undecodable (what : Text.Utf8.Invalid)
  | linkLoop (place : String)
  /-- A home directory of nobody known. -/
  | noHome
  | absentFile (path : String)
  | absentSchema (name directory : String)
  | schemaNoMapping (kind : String)
  | tooManyDigits (count : Nat)
  | notInteger (base : Nat) (text : String)
  | notNumber (text : String)
  /-- A number without any digit. -/
  | emptyNumber
  | noSuchKey (key : String)
  /-- A day or a time that is none of the calendar. -/
  | offCalendar (why : Moment.Flaw)
  /-- A text that is taken for a moment and does not write one. -/
  | noMoment
  | notFinite
  /-- A section of the configuration that is no mapping but of another kind. -/
  | noSection (kind : String)
  | noNumber (kind : String)
  | unknownScheme (url : String)
  | remote (what : Remote.Failure)
  | words (what : Words.Invalid)
  | noSuchWord
  /-- The parent of a context does not change. -/
  | fixedParent
  /-- An environment does not change; `title` names what it is. -/
  | immutable (title : String)
  | noSuchField (title field : String)
  /-- The name of an environment that is no text but of another kind. -/
  | nameNoText (kind : String)
  /-- Looked for in a list that does not hold it. -/
  | notListed (shown : String)
  /-- Inclusion nested without end. -/
  | tooDeep
  deriving DecidableEq, Repr

namespace Fault

def invalidBytes (u : Text.Utf8.Invalid) : String :=
  let place := match u.bytes with
    | [b] => "byte 0x" ++ String.ofList (Text.hex 2 b.toNat) ++ " in position " ++
        toString u.position
    | bs => "bytes in position " ++ toString u.position ++ "-" ++
        toString (u.position + bs.length - 1)
  "'utf-8' codec can't decode " ++ place ++ ": " ++ u.reason.text

def grammar : String := "!include <file|directory|url>"

def settingPrefix : String := "ARCHDSL_"

def mostDigits : Nat := 4300

def kind : Fault → Kind
  | tooManyWords | missingTarget | unsplittable _ _ => .grammar
  | notFound _ _ | failed _ _ => .resolution
  | invalidYaml _ _ | notMapping _ | emptyName | emptySegment _ | notNested _ _ => .config
  | violation _ _ _ => .schema
  | raised kind _ _ => kind
  | refused why _ => .ofCode why.code
  | embeddedNul | schemaNoMapping _ | tooManyDigits _ | notInteger _ _ | notNumber _
  | offCalendar _ | unknownScheme _ | words _ | notListed _ => .value
  | undecodable _ => .undecodable
  | linkLoop _ | noHome => .runtime
  | absentFile _ | absentSchema _ _ => .absent
  | notFinite => .overflow
  | remote what => what.kind
  | noSuchWord | emptyNumber => .index
  | noSuchKey _ => .key
  | noMoment | fixedParent | noSection _ | immutable _ | noSuchField _ _ => .noAttribute
  | noNumber _ | nameNoText _ => .type
  | tooDeep => .recursion

def message : Fault → String
  | tooManyWords => "Too many tokens, expected: " ++ grammar
  | missingTarget => "Expected: " ++ grammar
  | unsplittable line why => "Cannot tokenize " ++ Text.quoted line ++ ": " ++ why.text
  | notFound _ place => place ++ " could not be found"
  | failed _ why => why.message
  | invalidYaml path what => "Invalid YAML in " ++ path ++ ": " ++ what
  | notMapping path => "Config file must contain a mapping: " ++ path
  | emptyName => "Malformed " ++ settingPrefix ++ "* key"
  | emptySegment name =>
    "Malformed " ++ settingPrefix ++ "* key: empty segment in '" ++ name ++ "'."
  | notNested path key =>
    "Cannot override '" ++ ".".intercalate path ++ "': '" ++ key ++ "' is not a mapping"
  | violation schema location message =>
    "Validation failed against schema '" ++ schema ++ "' at " ++ location ++ ": " ++ message
  | raised _ message _ => message
  | refused why path =>
    "[Errno " ++ toString why.code ++ "] " ++ why.text ++ ": " ++ Text.quoted path
  | embeddedNul => "embedded null byte"
  | undecodable what => invalidBytes what
  | linkLoop place => "Symlink loop from " ++ Text.quoted place
  | noHome => "Could not determine home directory."
  | absentFile path => "File not found: " ++ path
  | absentSchema name directory =>
    "Schema not found: " ++ name ++ " (searched " ++ directory ++ ")"
  | schemaNoMapping kind => "Schema must be a YAML mapping, got " ++ kind
  | tooManyDigits count =>
    "Exceeds the limit (" ++ toString mostDigits ++ " digits) for integer string conversion: " ++
      "value has " ++ toString count ++
      " digits; use sys.set_int_max_str_digits() to increase the limit"
  | notInteger base text =>
    "invalid literal for int() with base " ++ toString base ++ ": " ++
      String.ofList ((Text.quote text.toList).take 200)
  | notNumber text => "could not convert string to float: " ++ Text.quoted text
  | emptyNumber => "string index out of range"
  | noSuchKey key => Text.quoted key
  | offCalendar why => why.text
  | noMoment => "'NoneType' object has no attribute 'groupdict'"
  | notFinite => "int too large to convert to float"
  | unknownScheme url => "unknown url type: " ++ Text.quoted url
  | noSection kind => "'" ++ kind ++ "' object has no attribute 'get'"
  | noNumber kind => "float() argument must be a string or a real number, not '" ++ kind ++ "'"
  | remote what => what.message
  | words what => what.text
  | noSuchWord => "list index out of range"
  | fixedParent => "property 'parent_file' of 'IncludedDslContext' object has no setter"
  | immutable title => title ++ " is immutable"
  | noSuchField title field => "'" ++ title ++ "' object has no attribute '" ++ field ++ "'"
  | nameNoText kind => "DeploymentEnvironment name must be a string, got " ++ kind
  | notListed shown => shown ++ " is not in list"
  | tooDeep => ""

/-- What a failed resolution tells beside its message: its source unless that is empty, and the kind
of its cause if it has one. -/
def resolutionContext (context : Mapping) (source : String) (cause : Option Kind) : Mapping :=
  let context := if source.isEmpty then context
    else Entries.insert context (.text "source") (.text source)
  match cause with
  | none => context
  | some kind => Entries.insert context (.text "cause") (.text kind.name)

def context : Fault → Mapping
  | notFound source _ => resolutionContext [] source none
  | failed source why => resolutionContext [] source (some why.kind)
  | invalidYaml path _ | notMapping path => .ofTexts [("path", path)]
  | violation schema location _ => .ofTexts [("schema", schema), ("path", location)]
  | raised _ _ context => context
  | _ => []

def cause : Fault → Option Kind
  | unsplittable _ _ => some .value
  | failed _ why => some why.kind
  | invalidYaml _ _ => some .yaml
  | violation _ _ _ => some .validation
  | _ => none

end Fault

end Splice
