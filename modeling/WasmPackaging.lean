import WasmPackaging.CommandTemplate
import WasmPackaging.Digest.Sha256
import WasmPackaging.Loader.Inlining
import WasmPackaging.Main
import WasmPackaging.Proofs.Text.Lines
import WasmPackaging.Proofs.Text.Spans
import WasmPackaging.Proofs.Loader.Clause
import WasmPackaging.Proofs.Loader.WrittenClause
import WasmPackaging.Proofs.Loader.ForwardText
import WasmPackaging.Proofs.Loader.Stripping
import WasmPackaging.Proofs.Loader.Cutting
import WasmPackaging.Proofs.Loader.Restripping
import WasmPackaging.Proofs.Loader.Statement
import WasmPackaging.Proofs.Loader.FactoryBody
import WasmPackaging.Proofs.Loader.Acceptance
import WasmPackaging.Proofs.Loader.FactoryText
import WasmPackaging.Proofs.Loader.ExportMap
import WasmPackaging.Proofs.Loader.HookLine
import WasmPackaging.Proofs.FileTree.WellFormed
import WasmPackaging.Proofs.FileTree.Resolution
import WasmPackaging.Proofs.FileTree.Area
import WasmPackaging.Proofs.Bundling.ModuleResolution
import WasmPackaging.Proofs.Bundling.Places
import WasmPackaging.Proofs.Bundling.Routes
import WasmPackaging.Proofs.Bundling.Steps
import WasmPackaging.Proofs.Bundling.Removal
import WasmPackaging.Proofs.Bundling.Graph
import WasmPackaging.Proofs.Bundling.Mirror
import WasmPackaging.Proofs.Bundling.MirrorResolution
import WasmPackaging.Proofs.Bundling.CopyText
import WasmPackaging.Proofs.Bundling.Record
import WasmPackaging.Proofs.Bundling.Externals
import WasmPackaging.Proofs.Bundling.Payloads
import WasmPackaging.Proofs.FileTree.LinkFree
import WasmPackaging.Proofs.Bundling.InlinedPayload
import WasmPackaging.Proofs.FileTree.Confinement
import WasmPackaging.Proofs.FileTree.Search
import WasmPackaging.Proofs.Publishing
import WasmPackaging.Proofs.Targets.EdgeCleanup
import WasmPackaging.Proofs.FileTree.Copies
import WasmPackaging.Proofs.Targets.PublishedLoader
import WasmPackaging.Proofs.Bundling.StageFailures
import WasmPackaging.Proofs.CommandLine.ExitStatus
import WasmPackaging.Proofs.Targets.EarlyFailure
import WasmPackaging.Proofs.Targets.CompleteResults
import WasmPackaging.Proofs.FileTree.Filling
import WasmPackaging.Proofs.Simulation
import WasmPackaging.Proofs.FileTree.Likeness
import WasmPackaging.Proofs.FileTree.LikeTasks
import WasmPackaging.Proofs.FileTree.LikeCopies
import WasmPackaging.Proofs.FileTree.ScriptSearch
import WasmPackaging.Proofs.LikePublishing
import WasmPackaging.Proofs.Targets.LikeSteps
import WasmPackaging.Proofs.Targets.LikeEdge
import WasmPackaging.Proofs.Targets.Rebuilding
import WasmPackaging.Proofs.Targets.LikeServer
import WasmPackaging.Proofs.Targets.Independence
import WasmPackaging.Proofs.Text.LiteralTemplate
import WasmPackaging.Proofs.Text.Replaced
import WasmPackaging.Proofs.Loader.FixedLocation
import WasmPackaging.Proofs.Loader.LiteralTexts
import WasmPackaging.Proofs.Loader.DeclaredName
import WasmPackaging.Proofs.Loader.TopLevel
import WasmPackaging.Proofs.Bundling.LoadingPlugins
import WasmPackaging.Proofs.Bundling.LoadedPayloads
import WasmPackaging.Proofs.Bundling.Mentions
import WasmPackaging.Proofs.Bundling.ModuleTokens
import WasmPackaging.Proofs.Bundling.ScannedImports
import WasmPackaging.Proofs.Bundling.Rewriting
import WasmPackaging.Proofs.Bundling.DirectoryIndex
import WasmPackaging.Proofs.Bundling.PluginOrder
import WasmPackaging.Proofs.FileTree.Ways
import WasmPackaging.Proofs.FileTree.Extension
import WasmPackaging.Proofs.FileTree.CopiedDirectories
import WasmPackaging.Proofs.Copying
import WasmPackaging.Proofs.FileTree.Moves
import WasmPackaging.Proofs.Renaming
import WasmPackaging.Proofs.Targets.AssetCopies
import WasmPackaging.Proofs.Targets.Leftovers
import WasmPackaging.Proofs.Targets.PublishedFiles
import WasmPackaging.Proofs.Swapping
import WasmPackaging.Proofs.CommandTemplate
import WasmPackaging.Proofs.Merging
import WasmPackaging.Proofs.FileTree.Fronts
import WasmPackaging.Proofs.FileTree.TwinCopies
import WasmPackaging.Proofs.UnorderedCopying
import WasmPackaging.Proofs.Specifier
import WasmPackaging.Proofs.Bundling.ServerImports
import WasmPackaging.Proofs.Document
import WasmPackaging.Proofs.Config.Violations
import WasmPackaging.Proofs.Config.Reading
