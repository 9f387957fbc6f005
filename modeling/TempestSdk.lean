import TempestSdk.Db.InboxAttempts
import TempestSdk.Db.OutboxDelivery
import TempestSdk.Db.Expressions
import TempestSdk.Cache.Invalidation
import TempestSdk.Cache.KeyFaithfulness
import TempestSdk.Db.WriteFailures
import TempestSdk.Wallet.Money
import TempestSdk.Wallet.RunningBalance
import TempestSdk.Wallet.HeldReversal
import TempestSdk.Wallet.Withdrawal
import TempestSdk.Wallet.ClaimOnce
import TempestSdk.Auth.RefreshTokens
import TempestSdk.Auth.SingleUse
import TempestSdk.Auth.Ceremonies
import TempestSdk.Auth.EmailRefusal
import TempestSdk.Tasks.Cancellation
import TempestSdk.Tasks.StageOwnership
import TempestSdk.Tasks.JobStore
import TempestSdk.Sessions.LogoutRace
import TempestSdk.Sessions.UserIndex
import TempestSdk.Sse.Broker
import TempestSdk.Admin.SqlScopes
import TempestSdk.Admin.SqlCapabilities
import TempestSdk.Integrations.ZapInbox
import TempestSdk.Integrations.PixSettlement
import TempestSdk.Agents.RunBounds
import TempestSdk.Db.TenantRuns
import TempestSdk.Api.Graceful
import TempestSdk.Api.OidcVerifier
import TempestSdk.Api.IdempotentReplay
import TempestSdk.Api.IdempotencyStores
import TempestSdk.Api.ResponseCacheHits
import TempestSdk.Genai.RegistryProgress
import TempestSdk.Queue.DedupMarks
import TempestSdk.Queue.FanOut
import TempestSdk.Queue.RedeliveryRuns
import TempestSdk.Tasks.SchedulerLease
import TempestSdk.Chat.Watermarks
import TempestSdk.Db.OffsetPages
import TempestSdk.Db.DeltaSync
import TempestSdk.Storage.LocalClientRuns
import TempestSdk.Utils.HttpAccounting
import TempestSdk.Utils.EntityTags
import TempestSdk.Utils.ByteRanges
import TempestSdk.Utils.Totp
import TempestSdk.Utils.ClientResolvers
import TempestSdk.Utils.UploadContent
import TempestSdk.Utils.ThrottleSlots
import TempestSdk.Utils.ThrottleWindow
import TempestSdk.Geo.Polyline
import TempestSdk.Genai.BatchingRuns
import TempestSdk.Api.QuotaCounters
import TempestSdk.Utils.SignedUrl
import TempestSdk.Utils.UrlPieces
import TempestSdk.Utils.Retry
import TempestSdk.Modelops.Ranking
import TempestSdk.Genai.Tokens
import TempestSdk.Utils.PixKeys
import TempestSdk.Utils.Phones
import TempestSdk.Api.QuotaSweeps
import TempestSdk.Api.BodySize
import TempestSdk.Websockets.Heartbeat
import TempestSdk.Api.SecretComparisons
import TempestSdk.Genai.Moderation
import TempestSdk.Websockets.Hub
import TempestSdk.Sse.Wire
