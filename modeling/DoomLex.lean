import DoomLex.Main
import DoomLex.Proofs.Document.Edits
import DoomLex.Proofs.Document.OnePass
import DoomLex.Proofs.Document.Relexing
import DoomLex.Proofs.Lexing.Case
import DoomLex.Proofs.Lexing.Comments
import DoomLex.Proofs.Lexing.Coverage
import DoomLex.Proofs.Lexing.Directives
import DoomLex.Proofs.Lexing.Lines
import DoomLex.Proofs.Lexing.Literals
import DoomLex.Proofs.Lexing.Pushback
import DoomLex.Proofs.Lexing.Resumption
import DoomLex.Proofs.Lexing.SwitchLines
import DoomLex.Proofs.Lexing.Emission
import DoomLex.Proofs.Text.Words
import DoomLex.Proofs.Tool.Counts
import DoomLex.Proofs.Tool.Reports
import DoomLex.Proofs.Lexing.TextureLines
import DoomLex.Proofs.Lexing.Surroundings
import DoomLex.Proofs.Lexing.Arguments
import DoomLex.Proofs.Lexing.Numerals
import DoomLex.Proofs.Lexing.Numbers
import DoomLex.Proofs.Lexing.Spelling
import DoomLex.Proofs.Document.LineStarts
import DoomLex.Proofs.Lexing.Restarts
import DoomLex.Proofs.Document.Ranges
import DoomLex.Proofs.Tool.Diagnostics
import DoomLex.Proofs.Link.Addresses
import DoomLex.Proofs.Link.QuotedPaths
import DoomLex.Proofs.Document.Columns
import DoomLex.Proofs.Document.SharedLines
import DoomLex.Proofs.Path.Order
import DoomLex.Proofs.Tool.Collection
import DoomLex.Proofs.Tool.Resolution
import DoomLex.Proofs.Tool.Accounts
import DoomLex.Proofs.Toml.Quoting
import DoomLex.Proofs.Toml.Scalar
import DoomLex.Proofs.Toml.Lines
import DoomLex.Proofs.Settings.Document
import DoomLex.Proofs.Tool.SavedSettings
import DoomLex.Proofs.Tool.Listing
import DoomLex.Proofs.Files.Growth
import DoomLex.Proofs.Tool.NewSettings
import DoomLex.Proofs.Text.Dictionaries
import DoomLex.Proofs.Text.CharacterSets
