import StreamCursor.Cursor.Describe
import StreamCursor.Main
import StreamCursor.Proofs.Checked.Demand
import StreamCursor.Proofs.Checked.Leavings
import StreamCursor.Proofs.CodePoints
import StreamCursor.Proofs.Cuts
import StreamCursor.Proofs.History.Carrying
import StreamCursor.Proofs.History.Chronicle
import StreamCursor.Proofs.History.Decoding
import StreamCursor.Proofs.History.Detection
import StreamCursor.Proofs.History.Growth
import StreamCursor.Proofs.History.Independence
import StreamCursor.Proofs.History.Interruption
import StreamCursor.Proofs.History.Place
import StreamCursor.Proofs.History.Recycling
import StreamCursor.Proofs.History.Reports
import StreamCursor.Proofs.History.Stock
import StreamCursor.Proofs.History.Storage
import StreamCursor.Proofs.Linked.Chain
import StreamCursor.Proofs.Pool.Paths
import StreamCursor.Proofs.Replay.Lockstep
import StreamCursor.Proofs.Settings.Consumption
import StreamCursor.Proofs.Settings.Document
import StreamCursor.Proofs.WordCount.Counting
