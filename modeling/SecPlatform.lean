import SecPlatform.Library.Lemmas.FileProgram
import SecPlatform.Execution.SettlementTheorems
import SecPlatform.Execution.Theorems
import SecPlatform.Compiler.IR.Theorems
import SecPlatform.Compiler.Resolve.Theorems
import SecPlatform.Contracts.Theorems
import SecPlatform.DurableExecution.RetryTheorems
import SecPlatform.Compiler.SemanticImpact.Theorems
import SecPlatform.Compiler.SemanticMutation.MatchExpectation
import SecPlatform.Compiler.SemanticMutation.Preflight
import SecPlatform.Compiler.SemanticMutation.Theorems
import SecPlatform.Compiler.SemanticMutation.RequestTheorems
import SecPlatform.Assurance.Theorems
import SecPlatform.Compilation.Theorems
import SecPlatform.Upgrade.Theorems
import SecPlatform.VerificationAction.ClaimTheorems
import SecPlatform.VerificationAction.IdentityTheorems
import SecPlatform.VerificationAction.MigrationTheorems
import SecPlatform.VerificationSession.Theorems
import SecPlatform.TestImpact.Theorems
import SecPlatform.Compiler.Templates.Theorems
import SecPlatform.Library.Spans
import SecPlatform.SourceProgram.Lemmas.Reduction
import SecPlatform.SourceProgram.Theorems
import SecPlatform.BranchLifecycle.Theorems
import SecPlatform.WorkSelection.Theorems
import SecPlatform.Overrides.Theorems
