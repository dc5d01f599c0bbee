import InfraHub.Lib.Run
import InfraHub.Auth.Bind
import InfraHub.Auth.Possession
import InfraHub.Auth.Contacts
import InfraHub.Lib.Upsert
import InfraHub.Lib.Regex
import InfraHub.Virt.Active
import InfraHub.Virt.Converge
import InfraHub.Virt.Exact
import InfraHub.Virt.Credential
import InfraHub.Virt.Pool
import InfraHub.Virt.Connection
import InfraHub.Virt.Overlap
import InfraHub.Virt.Parallel
import InfraHub.Virt.Foreign
import InfraHub.Notify.Read
import InfraHub.Magic.Stale
import InfraHub.Magic.Moves
import InfraHub.Magic.Failed
import InfraHub.Magic.Stranded
import InfraHub.Magic.Flight
import InfraHub.Permission.Detail
import InfraHub.Permission.MenuCache
import InfraHub.Permission.Needed
import InfraHub.Permission.Lapsed
import InfraHub.Permission.Reorder
import InfraHub.Permission.DeptTree
import InfraHub.Permission.MenuTree
import InfraHub.Drf.FormData
import InfraHub.Drf.Csv
import InfraHub.Lib.Json
import InfraHub.Task.Batch
import InfraHub.Auth.Isolation
import InfraHub.Auth.Lockout
import InfraHub.Auth.Once
import InfraHub.Auth.Password
import InfraHub.Notify.Inbox
import InfraHub.Drf.Malformed
import InfraHub.Files.Outlive
import InfraHub.Config.Fresh
import InfraHub.Config.Stored
import InfraHub.Drf.Reference
import InfraHub.Drf.Import
import InfraHub.Common.MenuTree
import InfraHub.Common.Sort
import InfraHub.Common.CacheList
import InfraHub.Settings.Setting
import InfraHub.Settings.BlockIp
import InfraHub.Virt.Distinct
import InfraHub.Virt.Mounts
import InfraHub.Virt.Usage
import InfraHub.Virt.Summary
import InfraHub.Virt.Client
import InfraHub.Fields.Width
import InfraHub.Permission.RowSet
import InfraHub.Permission.DeptClosure
import InfraHub.Permission.DeptRule
import InfraHub.Permission.RoleFields
import InfraHub.Notify.Performance
import InfraHub.Notify.Subscribe
import InfraHub.Common.ApiLogging
import InfraHub.Virt.FirstSync
import InfraHub.Settings.Password
import InfraHub.Task.Periodic
import InfraHub.Common.CacheSet
import InfraHub.Common.Trend
import InfraHub.Permission.FieldSync
import InfraHub.Permission.ViewPermissions
import InfraHub.Drf.Titles
import InfraHub.Common.Cipher
import InfraHub.Common.RandomString
import InfraHub.Common.Pending
