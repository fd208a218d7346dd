import Translit.Corpus
import Translit.Grammar.Layout
import Translit.Main
import Translit.Session
import Translit.Proofs.Account
import Translit.Proofs.NaiveConversion
import Translit.Proofs.WordByWord
import Translit.Proofs.Session.WriteOnce
import Translit.Proofs.Session.Installation
import Translit.Proofs.LookAhead
import Translit.Proofs.Policies
import Translit.Proofs.RelevantPatterns
import Translit.Proofs.Normalization
import Translit.Proofs.RomanLetters
import Translit.Proofs.Grammar.Faults
import Translit.Proofs.Grammar.Rendering
import Translit.Proofs.Trie.InsertionOrder
import Translit.Proofs.Splitting
import Translit.Proofs.Spans
import Translit.Proofs.LivePatterns
import Translit.Proofs.Tool.LineByLine
import Translit.Proofs.ShadowedRules
import Translit.Proofs.Tool.Accuracy
import Translit.Proofs.Tool.Explanation
import Translit.Proofs.Bounds
