import Strix.MachineRuns
import Strix.AtomicProgram
import Strix.RowTable
import Strix.StoreData
import Strix.StoreCrypto
import Strix.StoreSql
import Strix.ObjectReaders
import Strix.ObjectWriters
import Strix.Multipart
import Strix.ObjectDeletes
import Strix.Buckets
import Strix.StoreMachine
import Strix.StoreInvariant
import Strix.ExecutablePlatform
import Strix.WormSafety
import Strix.VersionHistory
import Strix.LatestVersion
import Strix.WriteLedger
import Strix.PartFiles
import Strix.ReadYourWrites
import Strix.RustText
import Strix.DenyOverrides
import Strix.IpAddresses
import Strix.JsonValues
import Strix.Policies
import Strix.IamStore
import Strix.S3Authorization
import Strix.ExplicitDeny
import Strix.AdminAuth
import Strix.OidcLogin
import Strix.SsoAuthority
import Strix.MultipartRequests
import Strix.MultipartTargets
import Strix.KeysetPaging
import Strix.ListObjects
import Strix.ListingExact
import Strix.ListingPages
import Strix.ListVersions
import Strix.VersionPages
import Strix.Interleaving
import Strix.StoreCalls
import Strix.ConsumedUploads
import Strix.BucketDeletion
import Strix.LockCalls
import Strix.ComplianceRetention
import Strix.LockedDeletes
import Strix.FailedWrites
import Strix.StorageLeaks
import Strix.ObjectRequests
import Strix.CustomerKeys
import Strix.VersionRequests
import Strix.AnonymousRequests
import Strix.PolicyConditions
import Strix.PolicyPatterns
import Strix.ControlPlane
import Strix.PolicySimulator
import Strix.PolicyDocuments
import Strix.SsoRequests
import Strix.SsoSessions
import Strix.ObjectLocks
import Strix.PromisedLocks
import Strix.VersioningSwitch
import Strix.SourceVersions
import Strix.ThreadTimes
import Strix.ConcurrentParts
import Strix.OperationDenies
import Strix.RateLimits
import Strix.IamCalls
import Strix.AdminLogins
import Strix.SessionLife
import Strix.LiveCredentials
import Strix.NotificationRules
import Strix.Tenants
import Strix.AuditLog
import Strix.AdminAudit
import Strix.S3Audit
import Strix.AuditRecords
import Strix.ObjectEvents
import Strix.Announcements
import Strix.AdminRoutes
import Strix.AdminTargets
import Strix.IamPrograms
import Strix.DeletedIdentities
import Strix.NewBuckets
import Strix.Migrations
import Strix.Copies
import Strix.Tagging
import Strix.Assembly
import Strix.PartNumbers
import Strix.RangeReads
import Strix.PartPages
import Strix.UploadPages
import Strix.PolicyEvaluation
import Strix.ExplainedDecisions
import Strix.AddressTexts
import Strix.CidrMatching
import Strix.ConditionSafety
import Strix.Dispatcher
import Strix.RetryLoops
import Strix.DeliveryRecords
import Strix.ScopedTables
import Strix.StorageUsage
import Strix.LoginLimits
import Strix.UniformLogins
import Strix.CreatedBuckets
import Strix.PercentEncoding
import Strix.SignatureV4
import Strix.Urls
import Strix.Presign
import Strix.PresignVerification
import Strix.PolicyValidation
import Strix.PrincipalMatching
import Strix.CredentialExpiry
import Strix.LoginLockout
import Strix.AccessKeyLimit
import Strix.SplitWords
import Strix.StoredConfigs
import Strix.StickySecrets
import Strix.ObjectKeys
import Strix.DroppedConditions
import Strix.TagsInMetadata
import Strix.JsonRecords
import Strix.BucketConfigurations
import Strix.ConfigurationRules
import Strix.ConfigurationRequests
import Strix.BatchDeletes
import Strix.HttpConditions
import Strix.ProgramFailures
import Strix.Preconditions
import Strix.DeclaredDigests
import Strix.OrderedPages
import Strix.AuditQueries
import Strix.CrashTriples
import Strix.IamUpgrades
import Strix.BulkDeletions
import Strix.ServerDeletions
import Strix.FilePaths
import Strix.NotedPrograms
import Strix.SharedInvariants
import Strix.UploadRows
import Strix.UploadPaths
import Strix.BlobCustody
import Strix.Linearization
import Strix.UnswitchedBuckets
import Strix.AtomicObjects
import Strix.LivePaging
import Strix.LiveListings
import Strix.BucketIsolation
import Strix.MasterKeyFile
