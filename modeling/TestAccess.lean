import TestAccess.Accessor.Json
import TestAccess.Main
import TestAccess.Tree.Json
import TestAccess.Proofs.Edits
import TestAccess.Proofs.TreeShape
import TestAccess.Proofs.SiteEdits
import TestAccess.Proofs.PointwiseSplice
import TestAccess.Proofs.InitializerPolicy
import TestAccess.Proofs.LayoutWords
import TestAccess.Proofs.Forwarding
import TestAccess.Proofs.ScanOrder
import TestAccess.Proofs.OtherAttributes
import TestAccess.Proofs.StrippedMarkers
import TestAccess.Proofs.MarkerNames
import TestAccess.Proofs.SpliceOrder
import TestAccess.Proofs.AbridgedJson
import TestAccess.Proofs.JsonRoundTrip
import TestAccess.Proofs.DistinctNames
import TestAccess.Proofs.ConfigLayers
import TestAccess.Proofs.ExpansionRuns
import TestAccess.Proofs.DefaultValues
import TestAccess.Proofs.CheckedFiles
import TestAccess.Proofs.ExpandedFile
import TestAccess.Proofs.InitializerMarks
import TestAccess.Proofs.SpliceVerdict
import TestAccess.Proofs.CommaLists
import TestAccess.Proofs.ParameterAttributes
import TestAccess.Proofs.PropertyBindings
import TestAccess.Proofs.AttributeGrammar
import TestAccess.Proofs.AccessorNames
import TestAccess.Proofs.BracketNesting
import TestAccess.Proofs.MethodSignature
import TestAccess.Proofs.SharedTypes
import TestAccess.Proofs.Rows
import TestAccess.Proofs.IndentedBlocks
import TestAccess.Proofs.SiteLines
import TestAccess.Proofs.OrderedRanges
import TestAccess.Proofs.PieceRanges
import TestAccess.Proofs.TakenRuns
import TestAccess.Proofs.PartRanges
import TestAccess.Proofs.SourceTree
