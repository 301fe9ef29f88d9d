import VirtualMssql.ResultShape
import VirtualMssql.TableInfo
import VirtualMssql.ProfileGrammar
import VirtualMssql.Secrets
import VirtualMssql.QuerySource
import VirtualMssql.Validator
import VirtualMssql.BestIndex
import VirtualMssql.Affinity
import VirtualMssql.ScanText
import VirtualMssql.Window
import VirtualMssql.Driver
import VirtualMssql.StableKey
import VirtualMssql.WorkerWakes
import VirtualMssql.CancelReach
import VirtualMssql.Pool
import VirtualMssql.Deadline
import VirtualMssql.ProfileSelect
import VirtualMssql.Written
import VirtualMssql.Publish
import VirtualMssql.ArgumentUse
import VirtualMssql.QueryTypes
import VirtualMssql.Leases
import VirtualMssql.CursorOpen
import VirtualMssql.ReadTxn
import VirtualMssql.Payload
import VirtualMssql.Credentials
import VirtualMssql.Redact
import VirtualMssql.Foundation
