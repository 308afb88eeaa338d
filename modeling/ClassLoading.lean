import ClassLoading.Access
import ClassLoading.Archive.Crc32
import ClassLoading.Archive.Inflate
import ClassLoading.Archive.Zip
import ClassLoading.Bytes.Reader
import ClassLoading.ClassFile.Basic
import ClassLoading.ClassFile.Code
import ClassLoading.ClassFile.Constant
import ClassLoading.ClassFile.Encoding
import ClassLoading.ClassFile.Error
import ClassLoading.ClassFile.Format
import ClassLoading.ClassPath.Candidate
import ClassLoading.ClassPath.Root
import ClassLoading.ClassPath.Search
import ClassLoading.ClassPath.Walk
import ClassLoading.ClassPath.Warning
import ClassLoading.CommandLine.Options
import ClassLoading.CommandLine.Run
import ClassLoading.Definition.Blueprint
import ClassLoading.Definition.Fields
import ClassLoading.Definition.Linking
import ClassLoading.Descriptor
import ClassLoading.Failure
import ClassLoading.Files.Path
import ClassLoading.Files.Tree
import ClassLoading.Loaded.Class
import ClassLoading.Loaded.Constant
import ClassLoading.Loaded.Description
import ClassLoading.Loaded.Error
import ClassLoading.Loader.InFlight
import ClassLoading.Loader.Initialization
import ClassLoading.Loader.Load
import ClassLoading.Loader.Progress
import ClassLoading.Loader.Requests
import ClassLoading.Loader.State
import ClassLoading.Loader.Threads
import ClassLoading.Main
import ClassLoading.Proofs.ModifiedUtf8
import ClassLoading.Proofs.Reading
import ClassLoading.Text.Hidden
import ClassLoading.Text.ModifiedUtf8
import ClassLoading.Text.Names
import ClassLoading.Text.Quoted
import ClassLoading.Text.Split
import ClassLoading.Proofs.Descriptors
import ClassLoading.Proofs.ClassFileFormat
import ClassLoading.Proofs.ClassTables
import ClassLoading.Proofs.Changes
import ClassLoading.Proofs.Operations
import ClassLoading.Proofs.Histories
import ClassLoading.Proofs.ThreadSteps
import ClassLoading.Proofs.Machines
import ClassLoading.Proofs.Building
import ClassLoading.Proofs.Blame
import ClassLoading.Proofs.FieldLayout
import ClassLoading.Proofs.Settling
import ClassLoading.Proofs.Portraits
import ClassLoading.Proofs.Checks
import ClassLoading.Proofs.Loadable
import ClassLoading.Proofs.Dependencies
import ClassLoading.Proofs.HistoryIndependence
import ClassLoading.Proofs.Ownership
import ClassLoading.Proofs.Deadlock
import ClassLoading.Proofs.Additions
import ClassLoading.Proofs.ClassObjects
import ClassLoading.Proofs.Moments
import ClassLoading.Proofs.Initializing
import ClassLoading.Proofs.RegistryAndPool
import ClassLoading.Proofs.FailedLoads
import ClassLoading.Proofs.SharedObjects
import ClassLoading.Proofs.SharedLoads
import ClassLoading.Proofs.Hierarchy
import ClassLoading.Proofs.RootClass
import ClassLoading.Proofs.RefusedWaits
import ClassLoading.Proofs.Executions
import ClassLoading.Proofs.Termination
import ClassLoading.Proofs.ArrayNames
import ClassLoading.Proofs.FaultAttribution
import ClassLoading.Proofs.PathResolution
import ClassLoading.Proofs.ClassPathWalk
import ClassLoading.Proofs.ClassPathCoverage
import ClassLoading.Proofs.SearchOrder
import ClassLoading.Proofs.SearchCompleteness
import ClassLoading.Proofs.RuntimePool
import ClassLoading.Proofs.FieldLinks
import ClassLoading.Proofs.Truncation
import ClassLoading.Proofs.Lookups
import ClassLoading.Proofs.SparedSearches
import ClassLoading.Proofs.SearchWarnings
import ClassLoading.Proofs.Outcomes
import ClassLoading.Proofs.CommandRuns
import ClassLoading.Proofs.ClassReferences
import ClassLoading.Proofs.InitialValues
import ClassLoading.Proofs.Scenes
import ClassLoading.Proofs.ArrayClasses
import ClassLoading.Proofs.DottedNames
import ClassLoading.Proofs.RootOrder
