import RemoteControl.Api.ConnectionKeys
import RemoteControl.Api.LiveSnapshot
import RemoteControl.Api.LoginLimiter
import RemoteControl.Api.Rotation
import RemoteControl.Api.RuntimeSettings
import RemoteControl.Api.Totp
import RemoteControl.Api.TrustedProxy
import RemoteControl.Backup.Restore
import RemoteControl.Builds.Lifecycle
import RemoteControl.Cluster.Leader
import RemoteControl.Control.DeliveryChecks
import RemoteControl.Control.QuarantineExport
import RemoteControl.Control.WriteAhead
import RemoteControl.Hbbr.ReadFrame
import RemoteControl.Hbbr.RelayLegacy
import RemoteControl.Hbbs.CacheFile
import RemoteControl.Hbbs.SecureTcp
import RemoteControl.Protocol.Address
import RemoteControl.Sync.AclVerdict
import RemoteControl.Sync.AddressBooks
import RemoteControl.Sync.Administrators
import RemoteControl.Sync.ClientOptions
import RemoteControl.Sync.DeploymentRaces
import RemoteControl.Sync.EffectiveSettings
import RemoteControl.Sync.EventStream
import RemoteControl.Sync.Lockout
import RemoteControl.Sync.OidcRequests
import RemoteControl.Sync.Privileges
import RemoteControl.Sync.SingleUse
import RemoteControl.Sync.Snapshot
