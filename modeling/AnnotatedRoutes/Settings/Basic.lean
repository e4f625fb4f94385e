import AnnotatedRoutes.Router.Templates
import AnnotatedRoutes.Routing.Model
import AnnotatedRoutes.Settings.Value
import AnnotatedRoutes.Text.Blank
import AnnotatedRoutes.Text.Lowercase

namespace AnnotatedRoutes

/-- Why settings cannot be used. -/
inductive SettingsFault where
  | fileMissing (path : Text)
  | fileUnreadable (path cause : Text)
  | notMapping (path : Text)
  | sectionMissing (name : Text)
  | catalogNotMapping
  | templateNotText (key : Scalar)
  | templateMissing (key : Text)
  /-- The ignored directories are a single value that is no text. -/
  | ignoredNotListed (value : Scalar)
  /-- A number is too long to be written. -/
  | numberTooLong
  deriving DecidableEq

/-- The kind of a scalar in messages. -/
def Scalar.kind : Scalar → Text
  | .null => "NoneType".toList
  | .bool _ => "bool".toList
  | .int _ => "int".toList
  | .double _ => "float".toList
  | .moment (.day _) => "datetime.date".toList
  | .moment (.time _ _ _) => "datetime.datetime".toList
  | .text _ => "str".toList

namespace SettingsFault

def message : SettingsFault → Text
  | .fileMissing path => "Config file not found: ".toList ++ Text.doubleQuoted path
  | .fileUnreadable path cause =>
    "Failed to read config ".toList ++ Text.doubleQuoted path ++ ": ".toList ++ cause
  | .notMapping path =>
    "Config file ".toList ++ Text.doubleQuoted path ++ " must be a YAML mapping at top level".toList
  | .sectionMissing name =>
    "Config section ".toList ++ Text.doubleQuoted name ++ " missing or not a dict".toList
  | .catalogNotMapping => "Config section ".toList ++ Text.doubleQuoted "catalog".toList ++
      " must be a mapping".toList
  | .templateNotText key =>
    "Config value ".toList ++ Text.doubleQuoted ("render.".toList ++ key.plain) ++
      " must be a string".toList
  | .templateMissing key => Text.quoted key
  | .ignoredNotListed value => '\'' :: (value.kind ++ "' object is not iterable".toList)
  | .numberTooLong =>
    "Exceeds the limit (".toList ++ Text.ofNat Scalar.digitLimit ++
      " digits) for integer string conversion; ".toList ++
      "use sys.set_int_max_str_digits() to increase the limit".toList

end SettingsFault

/-- How sources are written. -/
structure SourceSyntax where
  namespaceSeparator : Text
  constructorName : Text
  deriving DecidableEq

/-- Which files are controllers, and the names of the directories that are passed over, in lower
case. -/
structure ScanRules where
  ignoredDirectories : List Text
  controllerSuffix : Text
  sourceExtension : Text
  deriving DecidableEq

/-- The ending of a controller file's name. -/
def ScanRules.fileSuffix (rules : ScanRules) : Text :=
  rules.controllerSuffix ++ rules.sourceExtension

namespace Section

/-- A section that has to be there. -/
def requiredSection (document : Section) (name : Text) : Except SettingsFault Section :=
  match (document.get? name).bind Value.entries? with
  | some entries => .ok entries
  | none => .error (.sectionMissing name)

def phpSection (document : Section) : Except SettingsFault Section :=
  requiredSection document "php".toList

def scanSection (document : Section) : Except SettingsFault Section :=
  requiredSection document "scan".toList

/-- The first entry whose value is no text. -/
def firstNotText? (s : Section) : Option Scalar :=
  (s.find? fun entry => entry.2.text?.isNone).map Prod.fst

/-- The templates, all of which are texts. -/
def renderSection (document : Section) : Except SettingsFault Section := do
  let s ← requiredSection document "render".toList
  match firstNotText? s with
  | some key => .error (if key.isTooLong then .numberTooLong else .templateNotText key)
  | none => return s

/-- The text of the value under a key; a default in place of a void one. -/
def textOr (s : Section) (key default : Text) : Except SettingsFault Text :=
  match s.textOr? key default with
  | some t => .ok t
  | none => .error .numberTooLong

/-- The catalog section may be left out. -/
def catalogSection (document : Section) : Except SettingsFault Section :=
  match document.get? "catalog".toList with
  | none => .ok []
  | some (.scalar .null) => .ok []
  | some (.mapping entries) => .ok entries
  | some _ => .error .catalogNotMapping

/-- The file that catalog runs are logged to; empty if there is none. -/
def catalogLog (document : Section) : Except SettingsFault Text := do
  let s ← catalogSection document
  return Text.trim (← s.textOr "log_file".toList [])

def namespaceSeparator (document : Section) : Except SettingsFault Text := do
  (← phpSection document).textOr "namespace_separator".toList ['\\']

def sourceSyntax (document : Section) : Except SettingsFault SourceSyntax := do
  let namespaceSeparator ← document.namespaceSeparator
  let s ← phpSection document
  return { namespaceSeparator
           constructorName := ← s.textOr "constructor".toList "__construct".toList }

/-- The names in a value: the texts of a list, the keys of a mapping, or the characters of a
text. -/
def namesIn : Value → Except SettingsFault (List Text)
  | .list items => .ok (items.filterMap Value.text?)
  | .mapping entries => .ok (entries.filterMap fun entry => (Value.scalar entry.1).text?)
  | .scalar (.text t) => .ok (t.map ([·]))
  | .scalar s => .error (.ignoredNotListed s)

def ignoredDirectories (s : Section) : Except SettingsFault (List Text) :=
  match s.get? "ignore_dirs".toList with
  | none => .ok []
  | some v => (namesIn v).map fun names =>
      firstOfEach id ((names.filter (!Text.allBlank ·)).map Text.lower)

def scanRules (document : Section) : Except SettingsFault ScanRules := do
  let s ← scanSection document
  let ignored ← ignoredDirectories s
  return { ignoredDirectories := ignored
           controllerSuffix := ← s.textOr "controller_suffix".toList "Controller".toList
           sourceExtension := ← s.textOr "source_ext".toList ".php".toList }

/-- The template under a key. -/
def template? (s : Section) (key : Text) : Option Text := (s.get? key).bind Value.text?

def requiredTemplate (s : Section) (key : Text) : Except SettingsFault Text :=
  match template? s key with
  | some t => .ok t
  | none => .error (.templateMissing key)

def routerTemplates (document : Section) : Except SettingsFault RouterTemplates := do
  let s ← renderSection document
  let header ← requiredTemplate s "header".toList
  let controllerRule ← requiredTemplate s "controller_rule".toList
  let actionRule ← requiredTemplate s "action_rule".toList
  let controllerTitle :=
    (template? s "controller_title".toList).getD "// \x7brouting_name\x7d".toList
  let controller ← requiredTemplate s "controller".toList
  let actionTitle := (template? s "action_title".toList).getD "// \x7baction_id\x7d".toList
  let route ← requiredTemplate s "route".toList
  let method ← requiredTemplate s "method".toList
  let bind := (template? s "bind".toList).getD "->bind('\x7bname\x7d')".toList
  let chainIndent := (template? s "chain_indent".toList).getD "    ".toList
  let aclResource ← requiredTemplate s "acl_resource".toList
  let aclAllowOpen ← requiredTemplate s "acl_allow_open".toList
  let aclRule ← requiredTemplate s "acl_rule".toList
  let aclAllowClose ← requiredTemplate s "acl_allow_close".toList
  return { header, controllerRule, actionRule, controllerTitle, controller, actionTitle, route,
           method, bind, chainIndent, aclResource, aclAllowOpen, aclRule, aclAllowClose }

end Section

/-- Settings that can be used, and the document they were read from. -/
structure Settings where
  document : Section
  source : SourceSyntax
  scan : ScanRules
  templates : RouterTemplates

namespace Settings

/-- The settings of a document. Of several faults the first one in the order of the sections
`php`, `scan`, `render` is reported. -/
def ofDocument (document : Section) : Except SettingsFault Settings := do
  let source ← document.sourceSyntax
  let scan ← document.scanRules
  let templates ← document.routerTemplates
  return { document, source, scan, templates }

end Settings

end AnnotatedRoutes
