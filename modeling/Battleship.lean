import Battleship.Library.Wraparound
import Battleship.Screens
import Battleship.Preparing
import Battleship.EndToEnd
import Battleship.Terminal
import Battleship.FieldFleet
import Battleship.Library.SlotTable
import Battleship.Server
import Battleship.Engine
import Battleship.SessionShots
import Battleship.Duplicates
import Battleship.Delivery
import Battleship.Chunking
import Battleship.ByteStream
import Battleship.ReadyFds
import Battleship.TimerCharge
import Battleship.Bombardment
import Battleship.ShipEnds
import Battleship.SkippedMarks
import Battleship.Reencoding
import Battleship.Receipts
import Battleship.ResendPass
import Battleship.TimerConservation
import Battleship.Retransmission
import Battleship.Mail
import Battleship.EnemyView
import Battleship.Countdown
import Battleship.TextMessages
import Battleship.FifoLists
import Battleship.ShotSubscripts
import Battleship.FieldSubscripts
import Battleship.ValidSubscripts
import Battleship.ByteNetwork
