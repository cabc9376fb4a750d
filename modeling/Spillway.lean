import Spillway.Broker.Step
import Spillway.Document.Serial
import Spillway.Main
import Spillway.Proofs.Agreement
import Spillway.Proofs.Atomicity
import Spillway.Proofs.Attendance
import Spillway.Proofs.Destruction
import Spillway.Proofs.HeldBack
import Spillway.Proofs.CatchingUp
import Spillway.Proofs.Twins
import Spillway.Proofs.Reloading
import Spillway.Proofs.AnyKind
import Spillway.Proofs.Limits
import Spillway.Proofs.Closing
import Spillway.Proofs.FirstOpening
import Spillway.Proofs.Bookkeeping
import Spillway.Proofs.ColdHalf
import Spillway.Proofs.Protocol
import Spillway.Proofs.Capacity
import Spillway.Proofs.SortedList
import Spillway.Proofs.HeadWindow
import Spillway.Proofs.InPlace
import Spillway.Proofs.ByIds
import Spillway.Proofs.Guards
import Spillway.Proofs.Watchers
import Spillway.Proofs.Isolation
import Spillway.Proofs.Outages
import Spillway.Proofs.Refusals
import Spillway.Proofs.LowestWindow
import Spillway.Proofs.PlainTexts
import Spillway.Proofs.WrittenIds
import Spillway.Proofs.Layers
import Spillway.Proofs.Commands
import Spillway.Proofs.Hosts
import Spillway.Proofs.CommandLine
import Spillway.Proofs.Encoding
