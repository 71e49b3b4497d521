import MeshPipeline.Library.Text

/-!
# Plans and their prices

The plan catalogue, what a plan includes, and the price objects a deployment has configured.
-/

namespace MeshPipeline

structure PlanLimits where
  maxJobsPerOwner : Nat
  maxConcurrentJobs : Nat
  rateLimitPerMinute : Nat
  /-- Credits included in the tier's flat fee each period. -/
  includedCredits : Nat
  deriving DecidableEq, Repr

/-- A plan states only what it changes. -/
structure PlanOverride where
  maxJobsPerOwner : Option Nat
  maxConcurrentJobs : Option Nat
  rateLimitPerMinute : Option Nat
  includedCredits : Option Nat
  deriving DecidableEq, Repr

/-- `PLANS`. -/
def planCatalogue : List (String × PlanOverride) :=
  [("starter", ⟨some 50, some 3, none, some 1000⟩),
    ("team", ⟨some 500, some 10, some 600, some 10000⟩),
    ("enterprise", ⟨some 10000, some 50, some 3000, some 100000⟩)]

/-- The plans of the catalogue, in its order. -/
def planNames : List String := planCatalogue.map (·.1)

/-- `limits_for`: an unknown plan has the deployment's own limits, which include no credits. -/
def limitsFor (base : PlanLimits) (plan : String) : PlanLimits :=
  match planCatalogue.lookup (Text.key plan) with
  | none => { base with includedCredits := 0 }
  | some declared =>
    { maxJobsPerOwner := declared.maxJobsPerOwner.getD base.maxJobsPerOwner
      maxConcurrentJobs := declared.maxConcurrentJobs.getD base.maxConcurrentJobs
      rateLimitPerMinute := declared.rateLimitPerMinute.getD base.rateLimitPerMinute
      includedCredits := declared.includedCredits.getD 0 }

/-- The configured price ids; a blank one is not sold. -/
structure BillingSettings where
  priceStarter : String
  priceStarterOverage : String
  priceTeam : String
  priceTeamOverage : String
  deriving DecidableEq, Repr

/-- `price_for`: the flat price and the metered overage price. -/
def priceFor (cfg : BillingSettings) (plan : String) : String × String :=
  match Text.key plan with
  | "starter" => (cfg.priceStarter, cfg.priceStarterOverage)
  | "team" => (cfg.priceTeam, cfg.priceTeamOverage)
  | _ => ("", "")

end MeshPipeline
