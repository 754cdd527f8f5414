import LintRun.Main
import LintRun.Engine.Supplied
import LintRun.Proofs.Outcomes
import LintRun.Proofs.Judging.Budget
import LintRun.Proofs.Judging.Passage
import LintRun.Proofs.Judging.Reports
import LintRun.Proofs.Judging.Verdict
import LintRun.Proofs.Judging.Notice
import LintRun.Proofs.Judging.Grouping
import LintRun.Proofs.Linting.Visit
import LintRun.Proofs.Flow.Pass
import LintRun.Proofs.Flow.Interruption
import LintRun.Proofs.Linting.TimeLimit
import LintRun.Proofs.Configuration.Remembered
import LintRun.Proofs.Linting.Partition
import LintRun.Proofs.Engine.Supplied
import LintRun.Proofs.Flow.Stages
import LintRun.Proofs.Flow.Requests
import LintRun.Proofs.Payload.Spellings
import LintRun.Proofs.FileTree.Entries
import LintRun.Proofs.FileTree.Writing
import LintRun.Proofs.FileTree.Resolve
import LintRun.Proofs.Command.Scratch
import LintRun.Proofs.Command.Containment
import LintRun.Proofs.Command.Substitution
import LintRun.Proofs.Command.Survivors
import LintRun.Proofs.Command.Programs
import LintRun.Proofs.CommandLine.Arguments
import LintRun.Proofs.Settings
import LintRun.Proofs.Settings.Telling
import LintRun.Proofs.Settings.KeyOrder
import LintRun.Proofs.Check.RulesDirectory
import LintRun.Proofs.Configuration.Lasting
import LintRun.Proofs.Judging.Onlookers
import LintRun.Proofs.Reporter
import LintRun.Proofs.Command.Answers
import LintRun.Proofs.Flow.Answers
import LintRun.Proofs.Flow.Verdict
import LintRun.Proofs.Check.Preparation
import LintRun.Proofs.Check.Status
import LintRun.Proofs.Json.Written
import LintRun.Proofs.Console
import LintRun.Proofs.Reporter.Printed
import LintRun.Proofs.Command.ReadBack
import LintRun.Proofs.Json.Refusals
import LintRun.Proofs.FileTree.Agreement
import LintRun.Proofs.Payload.Elements
import LintRun.Proofs.FileTree.Resolved
import LintRun.Proofs.Record.OfFile
import LintRun.Proofs.Console.Verbatim
import LintRun.Proofs.Tally.Operations
import LintRun.Proofs.Settings.Said
import LintRun.Proofs.Check.Precedence
