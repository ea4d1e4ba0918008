import DocComment.Main
import DocComment.Proofs.Calls
import DocComment.Proofs.Edited
import DocComment.Proofs.Layout
import DocComment.Proofs.SideBySide
import DocComment.Proofs.Container
import DocComment.Proofs.IdGrammar
import DocComment.Proofs.ParameterList
import DocComment.Proofs.Declaration
import DocComment.Proofs.TypeExpression
import DocComment.Proofs.ParameterDisplay
import DocComment.Proofs.FullName
import DocComment.Proofs.ReadAlike
import DocComment.Proofs.DeclaredIds
import DocComment.Proofs.EnclosingType
import DocComment.Proofs.ShortenedName
import DocComment.Proofs.TextAndRuns
import DocComment.Proofs.Phrase
import DocComment.Proofs.LineEnds
import DocComment.Proofs.DocumentChar
import DocComment.Proofs.WrittenMarkup
import DocComment.Proofs.Balanced
import DocComment.Proofs.FrontOfTag
import DocComment.Proofs.WrittenTree
import DocComment.Proofs.WrittenDocument
import DocComment.Proofs.Blocks
import DocComment.Proofs.NormalForm
import DocComment.Proofs.Spaced
import DocComment.Proofs.SpacedOutput
import DocComment.Proofs.PlainText
import DocComment.Proofs.EnclosedFragment
import DocComment.Proofs.IgnoredMarkup
import DocComment.Proofs.Qualification
import DocComment.Proofs.DisplayedRuns
import DocComment.Proofs.ConstructorReference
import DocComment.Proofs.NestedType
import DocComment.Proofs.AnyScript
import DocComment.Proofs.ExplicitInterface
import DocComment.Proofs.MarkedIdentifier
import DocComment.Proofs.LoadedSymbols
import DocComment.Proofs.TopLevelCommas
import DocComment.Proofs.ReadListing
import DocComment.Proofs.FirstDeclaration
import DocComment.Proofs.UnresolvedReference
