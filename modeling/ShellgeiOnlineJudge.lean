import ShellgeiOnlineJudge.ThreadSystem
import ShellgeiOnlineJudge.Prog
import ShellgeiOnlineJudge.ContainerManager
import ShellgeiOnlineJudge.ContainerTokens
import ShellgeiOnlineJudge.ContainerSteps
import ShellgeiOnlineJudge.ContainerActions
import ShellgeiOnlineJudge.ContainerMethods
import ShellgeiOnlineJudge.ContainerCapacity
import ShellgeiOnlineJudge.PoolAvailability
import ShellgeiOnlineJudge.Executor
import ShellgeiOnlineJudge.RunShellgei
import ShellgeiOnlineJudge.ExecutionLogExecutor
import ShellgeiOnlineJudge.RunnerHttpSecurity
import ShellgeiOnlineJudge.Utf8
import ShellgeiOnlineJudge.FileTree
import ShellgeiOnlineJudge.Problem
import ShellgeiOnlineJudge.ExecutionArchive
import ShellgeiOnlineJudge.Execution
import ShellgeiOnlineJudge.Base64
import ShellgeiOnlineJudge.SandboxExecutor
import ShellgeiOnlineJudge.ExecShellgei
import ShellgeiOnlineJudge.OutputPipeline
import ShellgeiOnlineJudge.Judge
import ShellgeiOnlineJudge.Json
import ShellgeiOnlineJudge.Submission
import ShellgeiOnlineJudge.PublicApi
import ShellgeiOnlineJudge.ErrorConfinement
import ShellgeiOnlineJudge.ExecutionLogRow
import ShellgeiOnlineJudge.RunnerProtocol
import ShellgeiOnlineJudge.SizeBudgets
import ShellgeiOnlineJudge.RunnerClient
import ShellgeiOnlineJudge.ExecutionWatchdog
import ShellgeiOnlineJudge.ExecutionLogRetention
import ShellgeiOnlineJudge.FrontendTypes
import ShellgeiOnlineJudge.ContainerShutdown
import ShellgeiOnlineJudge.DatabaseMigrations
import ShellgeiOnlineJudge.Sha256
import ShellgeiOnlineJudge.ProblemData
import ShellgeiOnlineJudge.RunnerAgreement
import ShellgeiOnlineJudge.ProgTwin
import ShellgeiOnlineJudge.StructuredLogging
import ShellgeiOnlineJudge.TokenBucket
import ShellgeiOnlineJudge.AdmissionControl
import ShellgeiOnlineJudge.ImageBudget
import ShellgeiOnlineJudge.RunnerReplay
import ShellgeiOnlineJudge.DockerExec
import ShellgeiOnlineJudge.RequestCorrelation
import ShellgeiOnlineJudge.ArchiveTransport
import ShellgeiOnlineJudge.RevisionIdentity
import ShellgeiOnlineJudge.ProblemSchema
import ShellgeiOnlineJudge.ProblemLoader
import ShellgeiOnlineJudge.ProgRun
import ShellgeiOnlineJudge.ExecutionLogSave
import ShellgeiOnlineJudge.ProductionDeployment
import ShellgeiOnlineJudge.StructuredMigration
import ShellgeiOnlineJudge.FrontendCommand
import ShellgeiOnlineJudge.FrontendRun
import ShellgeiOnlineJudge.ProblemReview
import ShellgeiOnlineJudge.DeploymentInterruption
import ShellgeiOnlineJudge.PythonValue
import ShellgeiOnlineJudge.SupplyChain
import ShellgeiOnlineJudge.YamlScalar
import ShellgeiOnlineJudge.ProblemDump
import ShellgeiOnlineJudge.ProblemMigration
import ShellgeiOnlineJudge.ShellSyntax
import ShellgeiOnlineJudge.JsonPoints
import ShellgeiOnlineJudge.PythonLiteral
import ShellgeiOnlineJudge.SubmissionExamples
import ShellgeiOnlineJudge.DeployGate
import ShellgeiOnlineJudge.Playground
import ShellgeiOnlineJudge.JsonIndent
import ShellgeiOnlineJudge.ProblemManifest
import ShellgeiOnlineJudge.ProblemPages
import ShellgeiOnlineJudge.DeployPipeline
