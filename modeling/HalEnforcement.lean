import HalEnforcement.Admission
import HalEnforcement.AuditOrder
import HalEnforcement.AutoRefusals
import HalEnforcement.EntityOrder
import HalEnforcement.Freezing
import HalEnforcement.Http
import HalEnforcement.Linearizability
import HalEnforcement.Mediation
import HalEnforcement.PolicySources
import HalEnforcement.PromptText
import HalEnforcement.RateLimit.Burst
import HalEnforcement.RateLimit.Isolation
import HalEnforcement.RateLimit.Refusal
import HalEnforcement.RateLimit.Reopening
import HalEnforcement.RateLimit.Service
import HalEnforcement.RateLimit.WallClock
import HalEnforcement.RateLimit.Windows
import HalEnforcement.Relaxation
import HalEnforcement.Reports
import HalEnforcement.Schedules
import HalEnforcement.SessionCount
import HalEnforcement.Sessions
import HalEnforcement.Spelling
import HalEnforcement.Stores
import HalEnforcement.Tenants
import HalEnforcement.WorkloadCheck
import HalEnforcement.WorkloadContents
