import FeatureTree.Assembly.Run
import FeatureTree.Document.Json
import FeatureTree.Document.Views
import FeatureTree.Log.Console
import FeatureTree.Proofs.Block
import FeatureTree.Proofs.Reading
import FeatureTree.Proofs.Evaluation
import FeatureTree.Proofs.Production
import FeatureTree.Proofs.Document
import FeatureTree.Proofs.Script
import FeatureTree.Proofs.Listing
import FeatureTree.Proofs.Exit
import FeatureTree.Proofs.Brackets
import FeatureTree.Proofs.Purge
import FeatureTree.Proofs.Stored
import FeatureTree.Proofs.Refusal
import FeatureTree.Proofs.Validity
import FeatureTree.Proofs.Alike
import FeatureTree.Proofs.Apart
import FeatureTree.Proofs.Siblings
import FeatureTree.Proofs.Walk
import FeatureTree.Proofs.Localisation
import FeatureTree.Proofs.Finality
import FeatureTree.Proofs.Relabelling
import FeatureTree.Proofs.Retelling
import FeatureTree.Proofs.Fallback
import FeatureTree.Proofs.Pieces
import FeatureTree.Proofs.Fields
import FeatureTree.Proofs.Renaming
import FeatureTree.Proofs.Account
import FeatureTree.Proofs.JsonReader
import FeatureTree.Proofs.JsonExact
import FeatureTree.Proofs.JsonText
import FeatureTree.Proofs.Serialised
import FeatureTree.Proofs.Texts
import FeatureTree.Proofs.DescriptionLines
import FeatureTree.Proofs.TableLines
import FeatureTree.Proofs.Changes
import FeatureTree.Proofs.ConsoleLog
import FeatureTree.Proofs.DocStringLines
import FeatureTree.Proofs.SeverityNames
import FeatureTree.Proofs.RefusalPlace
import FeatureTree.Proofs.Outlining
import FeatureTree.Proofs.Holders
import FeatureTree.Proofs.Tagging
import FeatureTree.Proofs.Messages
import FeatureTree.Proofs.LanguageValues
import FeatureTree.Proofs.FullReading
