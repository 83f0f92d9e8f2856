import Coursework.Lock
import Coursework.Main
import Coursework.Storage.Faults
import Coursework.Proofs.Keys
import Coursework.Proofs.Reading
import Coursework.Proofs.Reconcile
import Coursework.Proofs.Merge
import Coursework.Proofs.MergeTree
import Coursework.Proofs.Contents
import Coursework.Proofs.ServiceRuns
import Coursework.Proofs.Dates
import Coursework.Proofs.Digits
import Coursework.Proofs.Documents
import Coursework.Proofs.Snapshots
import Coursework.Proofs.InstantText
import Coursework.Proofs.Forms
import Coursework.Proofs.Stores
import Coursework.Proofs.Answered
import Coursework.Proofs.MergePaths
import Coursework.Proofs.Consistent
import Coursework.Proofs.Calls
import Coursework.Proofs.LessonsApart
import Coursework.Proofs.SyncMerges
import Coursework.Proofs.Runs
import Coursework.Proofs.Earned
import Coursework.Proofs.Writes
import Coursework.Proofs.Frames
import Coursework.Proofs.Settled
import Coursework.Proofs.AnswerMerge
import Coursework.Proofs.MergeAgain
import Coursework.Proofs.LeftBehind
import Coursework.Proofs.UpToDate
import Coursework.Proofs.Commuting
import Coursework.Proofs.Asked
import Coursework.Proofs.Recorded
import Coursework.Proofs.NewContent
import Coursework.Proofs.Locks
import Coursework.Proofs.PairViews
import Coursework.Proofs.Tasks
import Coursework.Proofs.Serial
import Coursework.Proofs.StoredText
import Coursework.Proofs.Stamps
import Coursework.Proofs.History
import Coursework.Proofs.Listings
import Coursework.Proofs.TextOrder
import Coursework.Proofs.ReadBack
import Coursework.Proofs.DeckRows
import Coursework.Proofs.Mirror
import Coursework.Proofs.Sessions
import Coursework.Proofs.Marks
import Coursework.Proofs.RoundTrip
import Coursework.Proofs.Tallied
import Coursework.Proofs.Rereading
import Coursework.Proofs.Batch
import Coursework.Proofs.Catalogs
import Coursework.Proofs.Batching
import Coursework.Proofs.Walks
import Coursework.Proofs.GivenBack
import Coursework.Proofs.Browsed
import Coursework.Proofs.DeckReplacement
import Coursework.Proofs.Embedding
import Coursework.Proofs.Edits
import Coursework.Proofs.CardLookups
import Coursework.Proofs.DeckService
import Coursework.Proofs.Differences
import Coursework.Proofs.Spellings
import Coursework.Proofs.Flags
import Coursework.Proofs.Addresses
import Coursework.Proofs.Updates
import Coursework.Proofs.RollUps
import Coursework.Proofs.ByteOrder
import Coursework.Proofs.LessonListings
