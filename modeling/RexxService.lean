import RexxService.Message
import RexxService.Store.Session
import RexxService.Proofs.Completion.InComments
import RexxService.Proofs.Completion.Items
import RexxService.Proofs.Completion.Modes
import RexxService.Proofs.Completion.Names
import RexxService.Proofs.Completion.Replacement
import RexxService.Proofs.Completion.WordEnd
import RexxService.Proofs.Config.Records
import RexxService.Proofs.Lexer.Appending
import RexxService.Proofs.Lexer.Coverage
import RexxService.Proofs.Lexer.Draining
import RexxService.Proofs.Lexer.Lines
import RexxService.Proofs.Lexer.Munch
import RexxService.Proofs.Lexer.Nesting
import RexxService.Proofs.Lexer.Numbers
import RexxService.Proofs.Lexer.Slices
import RexxService.Proofs.Lexer.Strings
import RexxService.Proofs.Model.Appending
import RexxService.Proofs.Model.Findings
import RexxService.Proofs.Model.Layout
import RexxService.Proofs.Model.LetterCase
import RexxService.Proofs.Model.LineEndings
import RexxService.Proofs.Model.Lookup
import RexxService.Proofs.Model.Ranges
import RexxService.Proofs.Model.Search
import RexxService.Proofs.Model.Staleness
import RexxService.Proofs.Model.Streaming
import RexxService.Proofs.Store.Debounce
import RexxService.Proofs.Store.Handouts
import RexxService.Proofs.Store.Publications
import RexxService.Proofs.Store.Reference
import RexxService.Proofs.Store.Reload
import RexxService.Proofs.Store.Settings
import RexxService.Proofs.Store.Tickets
import RexxService.Proofs.Symbols.Blocks
import RexxService.Proofs.Symbols.Calls
import RexxService.Proofs.Symbols.FirstSpelling
import RexxService.Proofs.Symbols.Occurrences
