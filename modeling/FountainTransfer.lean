import FountainTransfer.Accounting
import FountainTransfer.FileCopy
import FountainTransfer.Pacing
import FountainTransfer.Reset
import FountainTransfer.SendProgress
import FountainTransfer.SessionIds
import FountainTransfer.Storage
import FountainTransfer.WireFormat
