import InboxOne.LabelledRuns
import InboxOne.Calendar
import InboxOne.NotificationRuns
import InboxOne.FolderCompletion
import InboxOne.Requests
import InboxOne.Watcher
import InboxOne.WatcherStops
import InboxOne.IdleEvents
import InboxOne.KeysetPages
import InboxOne.Cursor
import InboxOne.MessageList
import InboxOne.TrashMoves
import InboxOne.AgreementRuns
import InboxOne.MessageIds
import InboxOne.SyncAccount
import InboxOne.UnsolicitedFetch
import InboxOne.RecordedChanges
import InboxOne.ReplyRuns
import InboxOne.NewMail
import InboxOne.ActivityStore
import InboxOne.GreenStatus
import InboxOne.FinalCancellation
import InboxOne.ReadModifyWrite
import InboxOne.OAuthTokens
import InboxOne.RefreshTicks
import InboxOne.OwnedIds
import InboxOne.BusyIndicator
import InboxOne.EpochRuns
import InboxOne.NamedRows
import InboxOne.FolderDiscovery
import InboxOne.OrderedTrees
import InboxOne.MailParts
import InboxOne.AttachmentListing
import InboxOne.JsonParts
import InboxOne.RecipientSearch
import InboxOne.FetchedBodies
import InboxOne.ReadingDates
import InboxOne.HttpHeaders
import InboxOne.AttachmentNames
import InboxOne.HtmlTokens
import InboxOne.HtmlTexts
import InboxOne.HtmlTemplates
import InboxOne.QuotedMail
import InboxOne.RowsByKey
import InboxOne.UnreadCounts
import InboxOne.MarkedScopes
import InboxOne.TextLists
import InboxOne.OutgoingMail
import InboxOne.Gates
import InboxOne.SyncLocks
import InboxOne.AccountMirror
import InboxOne.Timers
import InboxOne.DeleteUndo
import InboxOne.HiddenDeletes
import InboxOne.LiveUpdates
import InboxOne.LiveViews
import InboxOne.Supervisor
import InboxOne.DeviceFlows
import InboxOne.SharedCalls
import InboxOne.SentCopies
import InboxOne.RefreshRounds
import InboxOne.AppSettings
