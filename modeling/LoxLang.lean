import LoxLang.Calculation
import LoxLang.Command.Generate
import LoxLang.Command.Run
import LoxLang.Division
import LoxLang.Main
import LoxLang.Proofs.Command.StoredRun
import LoxLang.Proofs.Grammar.Completeness
import LoxLang.Proofs.Reference.Refinement
import LoxLang.Proofs.Grammar.Places
import LoxLang.Proofs.Grammar.Recovery
import LoxLang.Proofs.Json.Depth
import LoxLang.Proofs.Tree.Reload
import LoxLang.Proofs.Source.Lexemes
import LoxLang.Proofs.Source.Munch
import LoxLang.Proofs.Source.Scanning
import LoxLang.Proofs.Execution.Tracking
import LoxLang.Proofs.Source.Lines
import LoxLang.Proofs.Execution.Renaming
import LoxLang.Proofs.Reference.Scoping
import LoxLang.Proofs.Session.Debugging
import LoxLang.Proofs.Session.Pieces
import LoxLang.Proofs.Grammar.Salvage
import LoxLang.Proofs.Grammar.Shape
import LoxLang.Proofs.Grammar.Progress
import LoxLang.Proofs.Value.Equality
import LoxLang.Proofs.Session.EqualValues
import LoxLang.Proofs.Session.Prompting
import LoxLang.Proofs.Execution.Framing
import LoxLang.Proofs.Execution.Transparency
import LoxLang.Proofs.Grammar.Joining
import LoxLang.Proofs.Grammar.Unwinding
import LoxLang.Proofs.Grammar.Omission
import LoxLang.Proofs.Family.Rules
import LoxLang.Proofs.Family.Spacing
import LoxLang.Proofs.Source.LineNumbers
import LoxLang.Proofs.Source.Respacing
import LoxLang.Proofs.Family.Reading
import LoxLang.Proofs.Family.Recognition
import LoxLang.Proofs.Decimal.Rounding
import LoxLang.Proofs.Decimal.Reading
import LoxLang.Proofs.Value.Display
import LoxLang.Proofs.Family.Generation
import LoxLang.Proofs.Family.Faithfulness
import LoxLang.Proofs.Source.Spelling
import LoxLang.Proofs.Tree.Brackets
import LoxLang.Proofs.Value.Numerals
import LoxLang.Proofs.Tree.Readability
