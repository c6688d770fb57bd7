import AdmController.Reflectors
import AdmController.BuiltinRegex
import AdmController.GroupExpressions
import AdmController.InitializationErrors
import AdmController.SettingsValidation
import AdmController.FaultIsolation
import AdmController.ResponseContract
import AdmController.EvaluationSlots
import AdmController.VerificationFile
import AdmController.InventoryFreshness
import AdmController.OpaInventory
import AdmController.CacheKey
import AdmController.FieldMask
import AdmController.WasiPipe
import AdmController.GuestHeap
import AdmController.BuiltinEncodings
import AdmController.SubjectPrefixes
import AdmController.MutationPatches
import AdmController.Validate
import AdmController.StoreRoundTrip
import AdmController.ImmutableRef
import AdmController.SourceCertificates
import AdmController.PolicyServer
import AdmController.TlsWatcher
import AdmController.RuleResources
import AdmController.VapCompiled
import AdmController.VerificationFlags
import AdmController.ExpressionAgreement
import AdmController.AllowedTargets
import AdmController.PolicyConditions
import AdmController.ContainerEnv
import AdmController.ManagedKeys
import AdmController.CARootRotation
import AdmController.CertTrust
import AdmController.ScanFailures
import AdmController.CapabilityRestriction
import AdmController.ExtensionGrants
import AdmController.MinimumVersion
import AdmController.WasmScanner
import AdmController.ScanPanics
import AdmController.ScanWorkers
import AdmController.RecordedSessions
import AdmController.BoundedOutput
import AdmController.WindowsPaths
import AdmController.RestrictedRequests
