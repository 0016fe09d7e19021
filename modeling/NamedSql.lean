import NamedSql.Gateway
import NamedSql.Database
import NamedSql.Proofs.NameCut
import NamedSql.Proofs.TemplateItems
import NamedSql.Proofs.TextSegments
import NamedSql.Proofs.InferredPhrases
import NamedSql.Proofs.InferredFilling
import NamedSql.Proofs.InferredMeaning
import NamedSql.Proofs.StandardSegments
import NamedSql.Proofs.StandardConfinement
import NamedSql.Proofs.InferredConfinement
import NamedSql.Proofs.GatewayRegistry
import NamedSql.Proofs.TemplateGrammar
import NamedSql.Proofs.TemplateFilling
import NamedSql.Proofs.TemplateParts
import NamedSql.Proofs.InferredKeys
import NamedSql.Proofs.GatewayCalls
import NamedSql.Proofs.StandardEntries
import NamedSql.Proofs.TokenPlaces
import NamedSql.Proofs.FinderKeys
import NamedSql.Proofs.FinderConditions
import NamedSql.Proofs.TemplateMarks
import NamedSql.Proofs.QuotingSwitch
import NamedSql.Proofs.FinderLiterals
import NamedSql.Proofs.UpdateAssignments
import NamedSql.Proofs.TableElements
import NamedSql.Proofs.UnresolvedSpans
import NamedSql.Proofs.TemplateSigns
import NamedSql.Proofs.TemplateConcatenation
import NamedSql.Proofs.TemplateSubstitution
import NamedSql.Proofs.WiderTables
import NamedSql.Proofs.RecordHistory
import NamedSql.Proofs.TableBinding
import NamedSql.Proofs.DefinitionEvents
import NamedSql.Proofs.RepeatedColumns
import NamedSql.Proofs.QuoteDoubling
import NamedSql.Proofs.TemplateShape
import NamedSql.Proofs.BareLiterals
