import Phrasebook.Main
import Phrasebook.Proofs.Caret
import Phrasebook.Proofs.CatalogText
import Phrasebook.Proofs.ConfigText
import Phrasebook.Proofs.Containment
import Phrasebook.Proofs.CopyIsolation
import Phrasebook.Proofs.Cursor
import Phrasebook.Proofs.Delivery
import Phrasebook.Proofs.Discovery
import Phrasebook.Proofs.Exhaustion
import Phrasebook.Proofs.Independence
import Phrasebook.Proofs.Interruption
import Phrasebook.Proofs.LateFailure
import Phrasebook.Proofs.LineByLine
import Phrasebook.Proofs.LiteralAgreement
import Phrasebook.Proofs.LocalizationAccount
import Phrasebook.Proofs.Lossless
import Phrasebook.Proofs.PipedAnswers
import Phrasebook.Proofs.Position
import Phrasebook.Proofs.ReplacementOrder
import Phrasebook.Proofs.SkippedCount
import Phrasebook.Proofs.SourceKept
import Phrasebook.Proofs.SurveyFiles
import Phrasebook.Proofs.TableName
import Phrasebook.World
