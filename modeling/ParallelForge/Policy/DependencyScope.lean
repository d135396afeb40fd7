import ParallelForge.Base.Codec
import ParallelForge.Base.PyJsonHook
import ParallelForge.Base.TableChange
import ParallelForge.Policy.Paths

/-!
# Dependency declarations (`application/services/dependency_scope.py`)

The dependencies a candidate adds, changes or removes in a manifest, and their
comparison with the declarations that were approved. Where the manifest is not read
or is ambiguous nothing is compared.
-/

namespace ParallelForge.Policy
open Base Json PyJson

/-- What `dependency_deltas` raises. -/
inductive ManifestError
  | scope (message : String)
  | path (message : String)
  | codec
  | json
  | toml
  | unhashable
  | unwritable
  deriving DecidableEq, Repr

/-- A value of `tomllib.loads`; `moment` is a date or a time. -/
inductive Toml
  | bool (value : Bool)
  | int (value : ℤ)
  | float (value : FloatText)
  | constant (value : JsonConstant)
  | str (value : Str)
  | moment (text : Str)
  | arr (items : List Toml)
  | table (members : List (Str × Toml))

/-- `tomllib.loads`, where it does not raise; the name `Requirement` finds in a requirement, where it
is valid; `canonicalize_name`; and the conversions of `json`. -/
structure Readers where
  tomlLoads : Str → Option (List (Str × Toml))
  requirementName : Str → Option Str
  canonicalizeName : Str → Str
  readFloat : FloatText → Option FloatText

structure DependencyDelta where
  path : Str
  group : Str
  package : Str
  before : Option Str
  after : Option Str
  deriving DecidableEq, Repr

def declarationPrefix : Str := codes "dependency:v1:"

def optionalText : Option Str → PyJson
  | some s => .str s
  | none => .null

/-- `json.dumps(value, ensure_ascii=False, sort_keys=True, separators=(",", ":"))`. -/
def canonicalText (members : List (Str × PyJson)) : Str := render false false (sortKeys (.obj members))

def DependencyDelta.members (d : DependencyDelta) : List (Str × PyJson) :=
  [(codes "after", optionalText d.after), (codes "before", optionalText d.before), (codes "group", .str d.group),
    (codes "package", .str d.package), (codes "path", .str d.path)]

/-- `DependencyDelta.declaration` (`dependency_scope.py:36-48`). -/
def DependencyDelta.declaration (d : DependencyDelta) : Str := declarationPrefix ++ canonicalText d.members

def nodeGroups : List Str :=
  ["dependencies", "devDependencies", "optionalDependencies", "peerDependencies"].map codes

def unsupportedNodeKeys : List Str :=
  ["bundledDependencies", "bundleDependencies", "overrides", "resolutions", "pnpm", "workspace", "workspaces",
    "catalog", "catalogs", "peerDependenciesMeta"].map codes

/-! ## Manifests -/

/-- `reject_duplicates`; `result` holds the members so far. -/
def rejectDuplicates (result : List (Str × PyJson)) : List (Str × PyJson) → Except ManifestError PyJson
  | [] => .ok (.obj result)
  | p :: pairs => do
    require (p.1 ∉ result.map Prod.fst) (.scope "duplicate JSON key is ambiguous")
    rejectDuplicates (result ++ [p]) pairs

variable (r : Readers)

/-- `_load_json`. -/
def loadJson (content : Option (List ℕ)) : Except ManifestError (List (Str × PyJson)) :=
  match content with
  | none => .ok []
  | some bytes => do
    let text ← orRaise (Codec.utf8 false bytes) .codec
    match ← loadsHooked .json r.readFloat (rejectDuplicates []) text with
    | .obj members => return members
    | _ => .error (.scope "package manifest root is not an object")

/-- `_load_toml`; a TOML document is a table. -/
def loadToml (content : Option (List ℕ)) : Except ManifestError (List (Str × Toml)) :=
  match content with
  | none => .ok []
  | some bytes => do
    let text ← orRaise (Codec.utf8 false bytes) .codec
    orRaise (r.tomlLoads text) .toml

/-- Entries by group and package. -/
abbrev Entries := Table (Str × Str) Str

/-- The items of a section, where all of them are texts. -/
def sectionItems : List (Str × PyJson) → Option (List (Str × Str))
  | [] => some []
  | (key, .str item) :: table => (sectionItems table).map ((key, item) :: ·)
  | _ :: _ => none

def nodeGroupEntries (value : List (Str × PyJson)) (entries : Entries) (group : Str) :
    Except ManifestError Entries :=
  match PyJson.get value group with
  | none => .ok entries
  | some .null => .ok entries
  | some (.obj table) => do
    let items ← orRaise (sectionItems table) (.scope "Node dependency section is ambiguous")
    return items.foldl (fun entries p => entries.put (group, p.1) p.2) entries
  | some _ => .error (.scope "Node dependency section is ambiguous")

/-- The values that are kept aside, of either kind of manifest. -/
inductive Unsupported
  | node (value : PyJson)
  | python (value : Toml)

/-- `value.get(key) is not None`. -/
def presentNodeKey (value : List (Str × PyJson)) (key : Str) : Option (Str × Unsupported) :=
  match PyJson.get value key with
  | none => none
  | some .null => none
  | some v => some (key, .node v)

def nodeEntries (content : Option (List ℕ)) : Except ManifestError (Entries × List (Str × Unsupported)) := do
  let value ← loadJson r content
  let entries ← nodeGroups.foldlM (nodeGroupEntries value) Table.empty
  return (entries, unsupportedNodeKeys.filterMap (presentNodeKey value))

/-- The three loops over requirements, `kind` being the word of their messages. -/
def requirementEntries (kind : String) (heading : Str) : Entries → List Toml → Except ManifestError Entries
  | entries, [] => .ok entries
  | entries, .str requirement :: requirements => do
    let name ← orRaise (r.requirementName requirement) (.scope (kind ++ " dependency name is ambiguous"))
    let key := r.canonicalizeName name
    require (entries.get (heading, key) = none) (.scope ("duplicate " ++ kind ++ " dependency is ambiguous"))
    requirementEntries kind heading (entries.put (heading, key) requirement) requirements
  | _, _ :: _ => .error (.scope (kind ++ " dependency is not a string"))

def optionalGroupEntries (entries : Entries) (group : Str × Toml) : Except ManifestError Entries :=
  match group.2 with
  | .arr requirements =>
    requirementEntries r "optional" (codes "project.optional-dependencies:" ++ group.1) entries requirements
  | _ => .error (.scope "optional dependency group is ambiguous")

/-- `value.get(key, {})`, which must be a table. -/
def tomlTable (value : List (Str × Toml)) (key : Str) (message : String) :
    Except ManifestError (List (Str × Toml)) :=
  match value.lookup key with
  | none => .ok []
  | some (.table members) => .ok members
  | some _ => .error (.scope message)

/-- `value.get(key, [])`, which must be a list. -/
def tomlList (value : List (Str × Toml)) (key : Str) (message : String) : Except ManifestError (List Toml) :=
  match value.lookup key with
  | none => .ok []
  | some (.arr items) => .ok items
  | some _ => .error (.scope message)

/-- `any(item in {"dependencies", "optional-dependencies"} for item in dynamic)`; a list or a table has no hash. -/
def namesDependencies : List Toml → Except ManifestError Bool
  | [] => .ok false
  | .arr _ :: _ => .error .unhashable
  | .table _ :: _ => .error .unhashable
  | .str item :: items =>
    if item = codes "dependencies" ∨ item = codes "optional-dependencies" then .ok true else namesDependencies items
  | _ :: items => namesDependencies items

def dynamicValue (project : List (Str × Toml)) : Except ManifestError (List (Str × Unsupported)) :=
  match project.lookup (codes "dynamic") with
  | none => .ok []
  | some (.arr items) => do
    if ← namesDependencies items then return [(codes "project.dynamic", .python (.arr items))]
    else if items.isEmpty then return []
    else .error (.scope "project.dynamic is ambiguous")
  | some _ => .error (.scope "project.dynamic is ambiguous")

def presentTomlKey (value : List (Str × Toml)) (heading key : Str) : Option (Str × Unsupported) :=
  (value.lookup key).map fun v => (heading ++ key, .python v)

def pythonEntries (content : Option (List ℕ)) : Except ManifestError (Entries × List (Str × Unsupported)) := do
  let value ← loadToml r content
  let project ← tomlTable value (codes "project") "Python dependency tables are ambiguous"
  let build ← tomlTable value (codes "build-system") "Python dependency tables are ambiguous"
  let dependencies ← tomlList project (codes "dependencies") "project.dependencies is ambiguous"
  let entries ← requirementEntries r "project" (codes "project.dependencies") Table.empty dependencies
  let optional ← tomlTable project (codes "optional-dependencies") "optional dependency groups are ambiguous"
  let entries ← optional.foldlM (optionalGroupEntries r) entries
  let requires ← tomlList build (codes "requires") "build-system.requires is ambiguous"
  let entries ← requirementEntries r "build" (codes "build-system.requires") entries requires
  let dynamic ← dynamicValue project
  return (entries, ["tool", "dependency-groups"].filterMap (fun key => presentTomlKey value [] (codes key)) ++
    ["build-backend", "backend-path"].filterMap
      (fun key => presentTomlKey build (codes "build-system.") (codes key)) ++ dynamic)

/-- `_entries` (`dependency_scope.py:95-182`). -/
def entries (path : Str) (content : Option (List ℕ)) : Except ManifestError (Entries × List (Str × Unsupported)) :=
  if codes "package.json" <:+ path then nodeEntries r content else pythonEntries r content

/-! ## Deltas -/

mutual
/-- What `json.dumps` writes for a value; it raises for a date or a time and for an integer with too many digits. -/
def Toml.plain : Toml → Option PyJson
  | .bool b => some (.bool b)
  | .int z => if (decimal z.natAbs).length ≤ digitLimit then some (.int z) else none
  | .float f => some (.float f)
  | .constant c => some (.constant c)
  | .str s => some (.str s)
  | .moment _ => none
  | .arr vs => (plainItems vs).map .arr
  | .table ms => (plainMembers ms).map .obj

def Toml.plainItems : List Toml → Option (List PyJson)
  | [] => some []
  | v :: vs => do
    let w ← v.plain
    let ws ← plainItems vs
    return w :: ws

def Toml.plainMembers : List (Str × Toml) → Option (List (Str × PyJson))
  | [] => some []
  | (k, v) :: ms => do
    let w ← v.plain
    let ws ← plainMembers ms
    return (k, w) :: ws
end

def Unsupported.plain : Unsupported → Option PyJson
  | .node v => some v
  | .python v => v.plain

/-- `json.dumps(unknown, sort_keys=True, separators=(",", ":"))`. -/
def unknownText (unknown : List (Str × Unsupported)) : Except ManifestError Str := do
  let members ← orRaise (unknown.mapM fun p => p.2.plain.map fun v => (p.1, v)) .unwritable
  return render false true (sortKeys (.obj members))

structure GitCandidateFile where
  path : Str
  baseContent : Option (List ℕ)
  headContent : Option (List ℕ)

/-- The order of the pairs of `group` and `package`. -/
def entryLe (p q : Str × Str) : Prop := p.1 < q.1 ∨ p.1 = q.1 ∧ p.2 ≤ q.2

instance : DecidableRel entryLe := fun p q => inferInstanceAs (Decidable (p.1 < q.1 ∨ p.1 = q.1 ∧ p.2 ≤ q.2))

/-- `sorted(set(before) | set(after))`. -/
def entryKeys (before after : Entries) : List (Str × Str) :=
  (before.rows.map Prod.fst ++ after.rows.map Prod.fst).dedup.insertionSort entryLe

def entryDelta (path : Str) (before after : Entries) (key : Str × Str) : Option DependencyDelta :=
  if before.get key ≠ after.get key then some ⟨path, key.1, key.2, before.get key, after.get key⟩ else none

/-- `dependency_deltas` (`dependency_scope.py:185-202`). -/
def dependencyDeltas (platform : Platform) (snapshot : GitCandidateFile) :
    Except ManifestError (List DependencyDelta) := do
  let path ← (normalizePolicyPath platform snapshot.path).mapError .path
  require ((path.splitOn 47).getLast? = some (codes "package.json") ∨
    (path.splitOn 47).getLast? = some (codes "pyproject.toml")) (.scope "dependency manifest format is unsupported")
  let (before, beforeUnknown) ← entries r path snapshot.baseContent
  let (after, afterUnknown) ← entries r path snapshot.headContent
  let beforeText ← unknownText beforeUnknown
  let afterText ← unknownText afterUnknown
  require (beforeText = afterText) (.scope "unsupported dependency-bearing manifest data changed")
  return (entryKeys before after).filterMap (entryDelta path before after)

/-! ## Declarations -/

/-- `set(parsed) != {...}` is not the case. -/
def hasDeltaKeys (parsed : List (Str × PyJson)) : Bool :=
  let fields := ["after", "before", "group", "package", "path"].map codes
  parsed.all (fun p => fields.contains p.1) && fields.all fun key => (parsed.map Prod.fst).contains key

/-- A turn of the loop: the canonical text, or nothing where the declaration is ambiguous. -/
def readDeclaration (declaration : Str) : Option Str :=
  if declarationPrefix <+: declaration then
    match Codec.encode (declaration.drop declarationPrefix.length) with
    | none => none
    | some payload =>
      match loadJson r (some payload) with
      | .error _ => none
      | .ok parsed =>
        let canonical := declarationPrefix ++ canonicalText parsed
        if hasDeltaKeys parsed = true then
          if canonical ≠ declaration ∨ parsed.any (fun p => !isTextOrNone p.2) = true then none else some canonical
        else none
  else none

/-- The loop over the declarations. -/
def collectDeclarations : Finset Str → List Str → Option (Finset Str)
  | actual, [] => some actual
  | actual, declaration :: declarations =>
    match readDeclaration r declaration with
    | none => none
    | some canonical => collectDeclarations (insert canonical actual) declarations

/-- `verify_dependency_declarations` (`dependency_scope.py:205-240`). -/
def verifyDependencyDeclarations (deltas : List DependencyDelta) (declarations : List Str) : Option String :=
  let expected := (deltas.map DependencyDelta.declaration).toFinset
  match collectDeclarations r ∅ declarations with
  | none => some "dependency_authorization_is_ambiguous"
  | some actual =>
    if actual.card ≠ declarations.length then some "dependency_authorization_is_ambiguous"
    else if actual ≠ expected then some "undeclared_dependency_change"
    else none

end ParallelForge.Policy
