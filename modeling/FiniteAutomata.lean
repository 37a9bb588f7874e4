import FiniteAutomata.CommandLine.Folder
import FiniteAutomata.Dfa.Run
import FiniteAutomata.Json5.Writing
import FiniteAutomata.Main
import FiniteAutomata.Proofs.Checked.Conversion
import FiniteAutomata.Proofs.Conversion.Blowup
import FiniteAutomata.Proofs.Conversion.Canonical
import FiniteAutomata.Proofs.Conversion.Drawing
import FiniteAutomata.Proofs.Conversion.Events
import FiniteAutomata.Proofs.Conversion.Language
import FiniteAutomata.Proofs.Conversion.Limit
import FiniteAutomata.Proofs.Conversion.Listing
import FiniteAutomata.Proofs.Conversion.Minimal
import FiniteAutomata.Proofs.Conversion.Renaming
import FiniteAutomata.Proofs.Dfa.Alike
import FiniteAutomata.Proofs.Dfa.Assembly
import FiniteAutomata.Proofs.Dfa.ShortWords
import FiniteAutomata.Proofs.Json5.Decoding
import FiniteAutomata.Proofs.Json5.RoundTrip
import FiniteAutomata.Proofs.Layout.Judgement
import FiniteAutomata.Proofs.Layout.Meaning
import FiniteAutomata.Proofs.Minimized.Classes
import FiniteAutomata.Proofs.Minimized.Completion
import FiniteAutomata.Proofs.Minimized.Idempotent
import FiniteAutomata.Proofs.Minimized.Live
import FiniteAutomata.Proofs.Minimized.Log
import FiniteAutomata.Proofs.Minimized.Quotient
import FiniteAutomata.Proofs.Minimized.Residual
import FiniteAutomata.Proofs.Nfa.Admission
import FiniteAutomata.Proofs.Registry
import FiniteAutomata.Proofs.Session
import FiniteAutomata.Proofs.Source
import FiniteAutomata.Proofs.Subset.Automaton
import FiniteAutomata.Proofs.Subset.Exploration
import FiniteAutomata.Proofs.Subset.Order
import FiniteAutomata.Proofs.Subset.Worklist
