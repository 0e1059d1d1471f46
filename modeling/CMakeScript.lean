import CMakeScript.Argument
import CMakeScript.Command.Help
import CMakeScript.Command.Invocation
import CMakeScript.Command.Job
import CMakeScript.Command.Run
import CMakeScript.Configuration
import CMakeScript.Data
import CMakeScript.Description
import CMakeScript.Description.Checked
import CMakeScript.Description.Issue
import CMakeScript.Description.Load
import CMakeScript.Description.Reader
import CMakeScript.Description.Writer
import CMakeScript.FileSystem
import CMakeScript.FileTree
import CMakeScript.Main
import CMakeScript.Name
import CMakeScript.Path
import CMakeScript.Platform
import CMakeScript.Problem
import CMakeScript.Record
import CMakeScript.Script
import CMakeScript.Section
import CMakeScript.Table
import CMakeScript.Text.Blank
import CMakeScript.Text.Fields
import CMakeScript.Text.Hex
import CMakeScript.Text.Utf8
import CMakeScript.Variable
import CMakeScript.Wiring
import CMakeScript.Yaml.Block
import CMakeScript.Yaml.BlockText
import CMakeScript.Yaml.Document
import CMakeScript.Yaml.Flow
import CMakeScript.Yaml.Folding
import CMakeScript.Yaml.Line
import CMakeScript.Yaml.Node
import CMakeScript.Yaml.Plain
import CMakeScript.Yaml.Property
import CMakeScript.Yaml.Quoted
import CMakeScript.Proofs.ArgumentDialects
import CMakeScript.Proofs.ArgumentGrammar
import CMakeScript.Proofs.BlockLines
import CMakeScript.Proofs.Blocks
import CMakeScript.Proofs.CommandLine
import CMakeScript.Proofs.Configured
import CMakeScript.Proofs.Execution
import CMakeScript.Proofs.FileChanges
import CMakeScript.Proofs.FreshRun
import CMakeScript.Proofs.Gathering
import CMakeScript.Proofs.Guards
import CMakeScript.Proofs.Indentation
import CMakeScript.Proofs.InstalledFiles
import CMakeScript.Proofs.Invariants
import CMakeScript.Proofs.InvocationOrder
import CMakeScript.Proofs.IssueReports
import CMakeScript.Proofs.Lexer
import CMakeScript.Proofs.ModuleSetup
import CMakeScript.Proofs.ModuleSources
import CMakeScript.Proofs.Narrowing
import CMakeScript.Proofs.OverrideValues
import CMakeScript.Proofs.Paths
import CMakeScript.Proofs.Reached
import CMakeScript.Proofs.Reading
import CMakeScript.Proofs.ReadingBack
import CMakeScript.Proofs.RejectedCalls
import CMakeScript.Proofs.RenderedBlocks
import CMakeScript.Proofs.ReportedErrors
import CMakeScript.Proofs.Schema
import CMakeScript.Proofs.ShownIssues
import CMakeScript.Proofs.SourceText
import CMakeScript.Proofs.Spelling
import CMakeScript.Proofs.Statement
import CMakeScript.Proofs.Targets
import CMakeScript.Proofs.UnknownPlatforms
import CMakeScript.Proofs.VariableScopes
import CMakeScript.Proofs.Verbosity
import CMakeScript.Proofs.Violations
import CMakeScript.Proofs.WiredVariables
