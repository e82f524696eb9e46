import GroovyShell.Completion.Case
import GroovyShell.Completion.Catalog
import GroovyShell.Completion.Cursor
import GroovyShell.Completion.Engine
import GroovyShell.Completion.Filenames
import GroovyShell.Completion.Members
import GroovyShell.Completion.Names
import GroovyShell.Completion.Offer
import GroovyShell.Completion.Stream
import GroovyShell.Completion.Suggestion
import GroovyShell.Config.Load
import GroovyShell.Config.Reader
import GroovyShell.Config.Scalar
import GroovyShell.Config.Settings
import GroovyShell.Config.Value
import GroovyShell.Config.Writer
import GroovyShell.Error
import GroovyShell.Files.Disk
import GroovyShell.Launch.Arguments
import GroovyShell.Launch.Interface
import GroovyShell.Lexing.Gap
import GroovyShell.Lexing.Item
import GroovyShell.Lexing.Keyword
import GroovyShell.Lexing.LexError
import GroovyShell.Lexing.Lexer
import GroovyShell.Lexing.Literal
import GroovyShell.Lexing.Token
import GroovyShell.Main
import GroovyShell.Proofs.ArrayDeclarations
import GroovyShell.Proofs.BalancedWords
import GroovyShell.Proofs.BehindCursor
import GroovyShell.Proofs.ByteOrder
import GroovyShell.Proofs.BytePositions
import GroovyShell.Proofs.CommandWords
import GroovyShell.Proofs.CompoundReceivers
import GroovyShell.Proofs.CursorToken
import GroovyShell.Proofs.DeclarationEnds
import GroovyShell.Proofs.DeclarationLines
import GroovyShell.Proofs.DeclaredNames
import GroovyShell.Proofs.DotBehind
import GroovyShell.Proofs.Emission
import GroovyShell.Proofs.Enclosures
import GroovyShell.Proofs.ExactCandidates
import GroovyShell.Proofs.FollowedPaths
import GroovyShell.Proofs.GapText
import GroovyShell.Proofs.HistoryHints
import GroovyShell.Proofs.ImportCommands
import GroovyShell.Proofs.ImportLines
import GroovyShell.Proofs.ItemEnds
import GroovyShell.Proofs.Items
import GroovyShell.Proofs.Layout
import GroovyShell.Proofs.LinesBelow
import GroovyShell.Proofs.ListedEntries
import GroovyShell.Proofs.LiteralMembers
import GroovyShell.Proofs.Lookahead
import GroovyShell.Proofs.Nesting
import GroovyShell.Proofs.OpenQuote
import GroovyShell.Proofs.OpenStrings
import GroovyShell.Proofs.OuterNames
import GroovyShell.Proofs.Places
import GroovyShell.Proofs.PrefixTokens
import GroovyShell.Proofs.ReceiverChain
import GroovyShell.Proofs.ReceiverPositions
import GroovyShell.Proofs.RepeatedReadings
import GroovyShell.Proofs.Replacement
import GroovyShell.Proofs.Rereading
import GroovyShell.Proofs.Respacing
import GroovyShell.Proofs.Runs
import GroovyShell.Proofs.SessionReplay
import GroovyShell.Proofs.SettingsInEffect
import GroovyShell.Proofs.SingleLineStrings
import GroovyShell.Proofs.Spelling
import GroovyShell.Proofs.StatementGrammar
import GroovyShell.Proofs.StatementLines
import GroovyShell.Proofs.TextEnds
import GroovyShell.Proofs.TrailingBlanks
import GroovyShell.Proofs.TypedPaths
import GroovyShell.Proofs.WordColumn
import GroovyShell.Proofs.WrittenFiles
import GroovyShell.Proofs.WrittenSettings
import GroovyShell.Proofs.WrittenStrings
import GroovyShell.Session.Command
import GroovyShell.Session.Declaration
import GroovyShell.Session.NameMap
import GroovyShell.Session.State
import GroovyShell.Shell.Hinter
import GroovyShell.Shell.History
import GroovyShell.Shell.Prompt
import GroovyShell.Shell.Repl
import GroovyShell.Statement
import GroovyShell.Text.Alphabetic
import GroovyShell.Text.Basic
import GroovyShell.Text.CharClass
import GroovyShell.Text.Numeric
import GroovyShell.Text.Uppercase
