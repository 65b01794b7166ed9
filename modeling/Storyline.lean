import Storyline.Inspect
import Storyline.Pattern.List
import Storyline.Rehearsal.Channel
import Storyline.Rehearsal.Recording
import Storyline.Rehearsal.Run
import Storyline.Harness
import Storyline.Main
import Storyline.Proofs.Enumeration
import Storyline.Proofs.Deduplication
import Storyline.Proofs.FirstExecution
import Storyline.Proofs.Attribution
import Storyline.Proofs.Calls.Protocol
import Storyline.Proofs.Containment
import Storyline.Proofs.Isolation
import Storyline.Proofs.Transcription
import Storyline.Proofs.Validation
import Storyline.Proofs.Ending
import Storyline.Proofs.Keeping
import Storyline.Proofs.Independence
import Storyline.Proofs.Files
import Storyline.Proofs.Rereading
import Storyline.Proofs.Classification
import Storyline.Proofs.Nesting
import Storyline.Proofs.Immediacy
import Storyline.Proofs.Handles
import Storyline.Proofs.PathShape
import Storyline.Proofs.Flags
import Storyline.Proofs.Encoding
import Storyline.Proofs.Grouping
import Storyline.Proofs.Confinement
import Storyline.Proofs.PatternLists
