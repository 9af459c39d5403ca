import Scoresheet.Game.Census
import Scoresheet.Game.Display
import Scoresheet.Game.Record
import Scoresheet.Reader.Pages
import Scoresheet.Proofs.Chunking
import Scoresheet.Proofs.Verdicts
import Scoresheet.Proofs.Segments
import Scoresheet.Proofs.Tokens
import Scoresheet.Proofs.Events
import Scoresheet.Proofs.Grammar
import Scoresheet.Proofs.Gathering
import Scoresheet.Proofs.Recognition
import Scoresheet.Proofs.Derivation
import Scoresheet.Proofs.Parsing
import Scoresheet.Proofs.Writing
import Scoresheet.Proofs.Standing
import Scoresheet.Proofs.Spelling
import Scoresheet.Proofs.Phrasing
import Scoresheet.Proofs.RoundTrip
import Scoresheet.Proofs.Exhaustion
import Scoresheet.Proofs.Failing
import Scoresheet.Proofs.Arena
import Scoresheet.Proofs.Interning
import Scoresheet.Proofs.Shift
import Scoresheet.Proofs.Tracking
import Scoresheet.Proofs.Restart
import Scoresheet.Proofs.Concatenation
import Scoresheet.Proofs.Finality
import Scoresheet.Proofs.Alongside
import Scoresheet.Proofs.Strictness
import Scoresheet.Proofs.Erasure
import Scoresheet.Proofs.Brackets
import Scoresheet.Proofs.ReadOver
import Scoresheet.Proofs.LeavingOut
import Scoresheet.Proofs.Hashing
import Scoresheet.Proofs.Sharing
import Scoresheet.Proofs.Lexemes
import Scoresheet.Proofs.Searching
import Scoresheet.Proofs.Whereabouts
import Scoresheet.Proofs.Numbers
import Scoresheet.Proofs.Complaints
import Scoresheet.Proofs.Admission
import Scoresheet.Proofs.Cutting
import Scoresheet.Proofs.Reuse
import Scoresheet.Proofs.Calls
import Scoresheet.Proofs.Setbacks
import Scoresheet.Proofs.Gaps
import Scoresheet.Proofs.Retrying
import Scoresheet.Proofs.Layout
import Scoresheet.Proofs.Echoes
import Scoresheet.Proofs.Abreast
import Scoresheet.Proofs.Respacing
import Scoresheet.Proofs.Paging
import Scoresheet.Proofs.RunningOut
import Scoresheet.Proofs.Lossless
import Scoresheet.Proofs.Overrun
import Scoresheet.Proofs.Spans
import Scoresheet.Proofs.Provenance
import Scoresheet.Proofs.WellFormed
import Scoresheet.Proofs.Enclosed
import Scoresheet.Proofs.Interleaving
import Scoresheet.Proofs.Glosses
import Scoresheet.Proofs.Greedy
import Scoresheet.Proofs.Limits
import Scoresheet.Proofs.Leftovers
import Scoresheet.Proofs.Unescaping
import Scoresheet.Proofs.Escaping
import Scoresheet.Proofs.Characters
import Scoresheet.Proofs.Commuting
import Scoresheet.Proofs.Trailing
import Scoresheet.Proofs.Wording
import Scoresheet.Proofs.Deferring
import Scoresheet.Proofs.Descending
import Scoresheet.Proofs.Headings
import Scoresheet.Proofs.Probing
import Scoresheet.Proofs.Descended
