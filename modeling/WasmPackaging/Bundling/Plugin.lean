import WasmPackaging.FileTree.Task
import WasmPackaging.Specifier

/-!
Plugins claim specifiers, say where they lead, and load what is not a module. The class of a
specifier is decided by the one plugin that claims it; without one it names an ordinary module.
-/

namespace WasmPackaging.Bundling

open Text

/-- The kinds of import. -/
inductive ImportClass where
  | ordinaryModule
  | binaryPayload
  | verbatimText
  | externalNative
  | companionBinaryModule
  deriving DecidableEq

/-- The kinds of import in order. -/
def ImportClass.all : List ImportClass :=
  [.ordinaryModule, .binaryPayload, .verbatimText, .externalNative, .companionBinaryModule]

/-- The name of a kind of import. -/
def ImportClass.name : ImportClass → String
  | .ordinaryModule => "ordinary_module"
  | .binaryPayload => "binary_payload"
  | .verbatimText => "verbatim_text"
  | .externalNative => "external_native"
  | .companionBinaryModule => "companion_binary_module"

/-- Where an import leads: to a path that the bundler leaves alone, or to one that it takes in. -/
structure Resolution where
  path : String
  external : Bool := false
  namespaceName : String := "file"
  deriving DecidableEq

/-- The content of an import that is no module. -/
inductive Content where
  | bytes (content : Bytes)
  | text (content : String)
  deriving DecidableEq

/-- The bytes of a content. -/
def Content.toBytes : Content → Bytes
  | .bytes content => content
  | .text content => encode content

/-- Loaded content, and the name of the loader that the bundler takes for it. -/
structure Loaded where
  content : Content
  loader : String
  deriving DecidableEq

/-- Where an import stands: the directory that its specifier starts at, and the module. -/
structure ImportSite where
  directory : Path
  importer : Path

/-- What is to be loaded: a path, and the namespace it was resolved in. -/
structure LoadRequest where
  path : String
  namespaceName : String

/-- A plugin given by its rules. A rule may look at the files but not change them. -/
structure PluginRules where
  name : String
  importClass : ImportClass
  accepts : String → Bool
  resolve : FileTree → ImportSite → String → Except Failure (Option Resolution)
  load : FileTree → LoadRequest → Except Failure (Option Loaded)

/-- A plugin: for binary payloads by their file extension, for texts by what the specifier starts with,
for packages of the host platform, for companion modules of an output directory, or one given by its
rules. -/
inductive Plugin where
  | binary (extension : String)
  | text (start : String)
  | native (platform : String) (inlined : List String)
  | companion (outputDirectory : Path) (suffixes : List String)
  | custom (rules : PluginRules)

/-- Whether a text ends with another. -/
def endsWith (ending text : String) : Bool := ending.toList.isSuffixOf text.toList

/-- The platform of a host that is not told. -/
def defaultPlatform : String := "linux"

/-- The endings of package imports that are bundled on a platform instead of left to it. -/
def inlinedOn : List (String × List String) := [("win32", ["index.js"])]

/-- The endings of companion modules. -/
def companionSuffixes : List String := ["bc.cjs", "plonk_wasm.cjs"]

namespace Plugin

/-- The plugin for packages of a platform; if none is given, or an empty one, of that of the host. -/
def forPlatform (platform : Option String) (table : List (String × List String))
    (host : String := defaultPlatform) : Plugin :=
  let platform := match platform with
    | none => host
    | some platform => if platform = "" then host else platform
  .native platform ((table.lookup platform).getD [])

/-- The plugin for companion modules of a directory. -/
def forCompanions (tree : FileTree) (directory : Path) (suffixes : List String) :
    Except Failure Plugin :=
  match tree.resolve directory with
  | .ok location => .ok (.companion (.ofLocation location) suffixes)
  | .error cycle => .error (.unresolvable cycle)

/-- The name of a plugin. -/
def name : Plugin → String
  | .binary _ => "binary-payload"
  | .text _ => "verbatim-text"
  | .native _ _ => "external-native"
  | .companion _ _ => "companion-binary-module"
  | .custom rules => rules.name

/-- The kind of import that a plugin claims. -/
def importClass : Plugin → ImportClass
  | .binary _ => .binaryPayload
  | .text _ => .verbatimText
  | .native _ _ => .externalNative
  | .companion _ _ => .companionBinaryModule
  | .custom rules => rules.importClass

/-- Whether a plugin claims a specifier. -/
def accepts (plugin : Plugin) (specifier : String) : Bool :=
  match plugin with
  | .binary extension => endsWith extension specifier
  | .text start => start.toList.isPrefixOf specifier.toList
  | .native _ _ => Specifier.namesPackage specifier.toList
  | .companion _ suffixes => suffixes.any (endsWith · specifier)
  | .custom rules => rules.accepts specifier

/-- The real location of what a text names from a directory. -/
def locationOf (tree : FileTree) (directory : Path) (text : String) : Except Failure Location :=
  (tree.resolve (directory.child text)).mapError .unresolvable

/-- Resolves a specifier to the real path that it names where it stands. -/
def resolveFile (tree : FileTree) (site : ImportSite) (specifier : String) :
    Except Failure (Option Resolution) :=
  (locationOf tree site.directory specifier).map fun location =>
    some { path := (Path.ofLocation location).toString }

/-- Where a specifier leads from a directory, in a module if one is named; nothing if the plugin leaves
that open. -/
def resolve (plugin : Plugin) (tree : FileTree) (directory : Path) (specifier : String)
    (importer : Path := directory) : Except Failure (Option Resolution) :=
  match plugin with
  | .binary _ => resolveFile tree ⟨directory, importer⟩ specifier
  | .text start => do
    let rest := String.ofList (specifier.toList.drop start.length)
    let location ← locationOf tree directory rest
    return some { path := (Path.ofLocation location).toString, namespaceName := "src-string" }
  | .native _ inlined =>
    if inlined.any (endsWith · specifier) then .ok none
    else .ok (some { path := specifier, external := true })
  | .companion output _ => do
    let location ← locationOf tree directory specifier
    let path := Specifier.relative location (output.normalize tree.workingDirectory)
    return some { path, external := true }
  | .custom rules => rules.resolve tree ⟨directory, importer⟩ specifier

/-- What a plugin loads from a path in a namespace; nothing if it leaves that to the bundler. -/
def load (plugin : Plugin) (tree : FileTree) (path : String) (namespaceName : String := "file") :
    Except Failure (Option Loaded) :=
  match plugin with
  | .binary _ => do
    let content ← (tree.read (.ofString path)).mapError fun e =>
      Failure.during "read binary payload" path (.refused e)
    return some ⟨.bytes content, "binary"⟩
  | .text _ => do
    let bytes ← (tree.read (.ofString path)).mapError fun e =>
      Failure.during "read verbatim text" path (.refused e)
    let text ← (decode bytes).mapError .undecodable
    return some ⟨.text (String.ofList (plainNewlines text)), "text"⟩
  | .native _ _ => .ok none
  | .companion _ _ => .ok none
  | .custom rules => rules.load tree ⟨path, namespaceName⟩

end Plugin

/-- The kind of an import, and the plugin that claims it. -/
structure Classification where
  importClass : ImportClass
  plugin : Option Plugin

/-- Classifies a specifier: at most one plugin may claim it. -/
def classify (plugins : List Plugin) (specifier : String) : Except Failure Classification :=
  match plugins.filter (·.accepts specifier) with
  | [] => .ok ⟨.ordinaryModule, none⟩
  | [plugin] => .ok ⟨plugin.importClass, some plugin⟩
  | claimants => .error (.ambiguous specifier (claimants.map Plugin.name))

end WasmPackaging.Bundling
