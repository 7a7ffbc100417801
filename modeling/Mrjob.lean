import Mrjob.Text
import Mrjob.Runtime
import Mrjob.Json
import Mrjob.Job
import Mrjob.Steps
import Mrjob.Negotiation
import Mrjob.GroupBy
import Mrjob.Executor
import Mrjob.Framing
import Mrjob.Dispatch
import Mrjob.Counters
import Mrjob.Refinement
import Mrjob.Pipeline
import Mrjob.Combine
import Mrjob.Upload
