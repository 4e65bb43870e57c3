import SignalBridge.Main
import SignalBridge.Proofs.RoundTrip
import SignalBridge.Proofs.UpToDate
import SignalBridge.World
import SignalBridge.Proofs.Loading
import SignalBridge.Proofs.Repacking
import SignalBridge.Proofs.WholeReplay
import SignalBridge.Proofs.TrueDivision
import SignalBridge.Proofs.DeclaredLeaves
import SignalBridge.Proofs.KeptMessages
import SignalBridge.Proofs.TableIndices
import SignalBridge.Proofs.Rereading
import SignalBridge.Proofs.DocumentFaults
import SignalBridge.Proofs.LoopActs
import SignalBridge.Proofs.ShutdownOrder
import SignalBridge.Proofs.FrameFaults
import SignalBridge.Proofs.FailedStart
import SignalBridge.Proofs.DeclaredLayout
import SignalBridge.Proofs.IntegerRange
import SignalBridge.Proofs.BitReading
import SignalBridge.Proofs.FiniteTable
import SignalBridge.Proofs.FrameOverlay
import SignalBridge.Proofs.SelectedSignals
import SignalBridge.Proofs.UndividedText
import SignalBridge.Proofs.ReadValues
import SignalBridge.Proofs.UntouchedFrames
import SignalBridge.Proofs.DeclarationGrammar
import SignalBridge.Proofs.ExactNumbers
import SignalBridge.Proofs.WrittenValues
import SignalBridge.Proofs.LookupMatching
import SignalBridge.Proofs.LogLine
import SignalBridge.Proofs.FractionPlaces
import SignalBridge.Proofs.CheckedCodec
