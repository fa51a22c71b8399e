import S3Manager.Access.Gate
import S3Manager.Access.GateErrors
import S3Manager.Access.Grants
import S3Manager.Access.OfferedPrefixes
import S3Manager.Access.OmittedRole
import S3Manager.Access.PrefixCover
import S3Manager.Access.Roles
import S3Manager.Auth.Checks
import S3Manager.Auth.CsrfBinding
import S3Manager.Auth.GatewayPrincipal
import S3Manager.Auth.Session
import S3Manager.Clients.Build
import S3Manager.Clients.Cache
import S3Manager.Clients.CacheRuns
import S3Manager.Clients.Probe
import S3Manager.Clients.Resolve
import S3Manager.Clients.RoleAgreement
import S3Manager.Clients.SaveInterleaving
import S3Manager.Config.Migrate
import S3Manager.Config.MigrationLaw
import S3Manager.Config.PresignedTtls
import S3Manager.Config.Reload
import S3Manager.Config.ReloadRuns
import S3Manager.Config.SaveCrash
import S3Manager.Doors.Attribution
import S3Manager.Doors.BrowserSession
import S3Manager.Doors.Browsing
import S3Manager.Doors.BulkDeletes
import S3Manager.Doors.BulkUploads
import S3Manager.Doors.Confinement
import S3Manager.Doors.Delivery
import S3Manager.Doors.KillSwitch
import S3Manager.Doors.ListedBuckets
import S3Manager.Doors.NamedKeys
import S3Manager.Doors.PrefixLaw
import S3Manager.Doors.ReadBack
import S3Manager.Doors.RouteKeys
import S3Manager.Doors.SelectedDeletes
import S3Manager.Doors.SettledDeletes
import S3Manager.Doors.UrlLifetime
import S3Manager.Doors.WriteGuards
import S3Manager.Errors.Classify
import S3Manager.Library.Assoc
import S3Manager.Library.Base64
import S3Manager.Library.Best
import S3Manager.Library.Distinct
import S3Manager.Library.Drain
import S3Manager.Library.FieldRules
import S3Manager.Library.Inline
import S3Manager.Library.Interference
import S3Manager.Library.Marks
import S3Manager.Library.OrderedMap
import S3Manager.Library.Paging
import S3Manager.Library.PathPattern
import S3Manager.Library.Percent
import S3Manager.Library.Pool
import S3Manager.Library.Program
import S3Manager.Library.Replay
import S3Manager.Library.Scan
import S3Manager.Library.Segments
import S3Manager.Library.Transition
import S3Manager.Library.Trim
import S3Manager.Library.Utf8
import S3Manager.Mcp.DenialAnswers
import S3Manager.Mcp.DenialCodes
import S3Manager.Mcp.FailureClass
import S3Manager.Mcp.Ladder
import S3Manager.Mcp.LosslessRead
import S3Manager.Mcp.Move
import S3Manager.Mcp.ReadCap
import S3Manager.Mcp.ReadFile
import S3Manager.Mcp.Refusals
import S3Manager.Mcp.SummaryAnswer
import S3Manager.Mcp.Tools
import S3Manager.Mcp.UploadSize
import S3Manager.Python.AsciiCase
import S3Manager.Python.Doubles
import S3Manager.Python.Error
import S3Manager.Python.Json
import S3Manager.Python.JsonPrefix
import S3Manager.Python.JsonRoundTrip
import S3Manager.Python.JsonText
import S3Manager.Python.Text
import S3Manager.Storage.BucketLaw
import S3Manager.Storage.ChangingFolder
import S3Manager.Storage.ChangingPages
import S3Manager.Storage.ClientChunks
import S3Manager.Storage.ConfinedHelpers
import S3Manager.Storage.Confinement
import S3Manager.Storage.DeleteRuns
import S3Manager.Storage.DeleteTarget
import S3Manager.Storage.ExpiryNotions
import S3Manager.Storage.Failures
import S3Manager.Storage.FolderLines
import S3Manager.Storage.HelperRequests
import S3Manager.Storage.HonestDelete
import S3Manager.Storage.Interference
import S3Manager.Storage.KeptContent
import S3Manager.Storage.Listings
import S3Manager.Storage.LossyStore
import S3Manager.Storage.Objects
import S3Manager.Storage.PageSplits
import S3Manager.Storage.PaginatedFolder
import S3Manager.Storage.PrefixLaw
import S3Manager.Storage.RecursivePaging
import S3Manager.Storage.RecursiveWalk
import S3Manager.Storage.Requests
import S3Manager.Storage.Retry
import S3Manager.Storage.RetryDiscipline
import S3Manager.Storage.RetryLoop
import S3Manager.Storage.SearchChunks
import S3Manager.Storage.SettledDelete
import S3Manager.Storage.SharedStore
import S3Manager.Storage.Store
import S3Manager.Storage.StoreChanges
import S3Manager.Storage.StoreRuns
import S3Manager.Storage.Summary
import S3Manager.Storage.SummaryCoverage
import S3Manager.Storage.SummaryReference
import S3Manager.Tokens.Authenticate
import S3Manager.Tokens.Runs
import S3Manager.Tokens.Store
import S3Manager.Ui.BulkDelete
import S3Manager.Ui.BulkUpload
import S3Manager.Ui.DroppedFolders
import S3Manager.Ui.FileBrowser
import S3Manager.Ui.FolderUrls
import S3Manager.Ui.FolderWalk
import S3Manager.Ui.JoinedPaths
import S3Manager.Ui.LoadAll
import S3Manager.Ui.NamePattern
import S3Manager.Ui.RolesPage
import S3Manager.Ui.SavedName
import S3Manager.Ui.ShiftSelect
import S3Manager.Utils.ContentDisposition
import S3Manager.Utils.Sanitize
import S3Manager.Web.BodyGuards
import S3Manager.Web.ConfigLaws
import S3Manager.Web.ConfigRoutes
import S3Manager.Web.ConfigSecrecy
import S3Manager.Web.ExtensionLists
import S3Manager.Web.HotReload
import S3Manager.Web.PathLabels
import S3Manager.Web.ReaderSafety
import S3Manager.Web.RoleEdits
import S3Manager.Web.Routes
import S3Manager.Web.SecretContinuity
import S3Manager.Web.UploadLimits
