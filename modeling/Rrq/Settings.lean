import Rrq.Job

-- The settings that the modelled code reads, and what a runner answers.

namespace Rrq

structure RRQSettings where
  defaultQueueName : String := "rrq:queue:default"
  defaultDlqName : String := "rrq:dlq:default"
  defaultMaxRetries : Int := 5
  defaultJobTimeoutSeconds : Int := 300
  defaultLockTimeoutExtensionSeconds : Int := 60
  defaultResultTtlSeconds : Int := 60 * 60 * 24
  defaultUniqueJobLockTtlSeconds : Int := 60 * 60 * 6
  defaultRunnerName : String := "python"
  runnerRoutes : List (String × String) := []
  correlationMappings : List (String × String) := []
  baseRetryDelaySeconds : ℚ := 5
  maxRetryDelaySeconds : ℚ := 60 * 60
  workerHealthCheckIntervalSeconds : ℚ := 60
  workerHealthCheckTtlBufferSeconds : ℚ := 10

inductive OutcomeStatus where
  | Success
  | Retry
  | Timeout
  | Error
deriving DecidableEq

structure ExecutionError where
  message : String
  errorType : Option String := none

structure ExecutionOutcome where
  status : OutcomeStatus
  result : Option Json := none
  error : Option ExecutionError := none
  retryAfterSeconds : Option ℚ := none

-- Either the runner answered in time, with an outcome or a transport error, or it did not.
inductive RunnerExecutionResult where
  | Completed (result : Except String ExecutionOutcome)
  | TimedOut

end Rrq
